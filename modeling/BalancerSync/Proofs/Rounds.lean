import BalancerSync.Rendezvous
import Mathlib.Data.List.Basic
import Mathlib.Logic.Function.Basic

namespace BalancerSync.Rendezvous

variable {κ β : Type}

inductive Phase (β : Type)
  /-- Has not arrived for the next round. -/
  | away
  /-- Fills its slot. -/
  | waiting (a : Nat) (woken : Bool)
  /-- Belongs to the round that is being led. -/
  | called (a : Nat)
  /-- Has not seen the outcome of its round. -/
  | holding (a : Nat) (outcome : Outcome β)
  | leading (a : Nat)
  | gone

namespace Phase

def slot : Phase β → Option Nat
  | waiting a _ => some a
  | _ => none

def arrival? : Phase β → Option Nat
  | waiting a _ | called a | holding a _ | leading a => some a
  | away | gone => none

def isHere : Phase β → Bool
  | gone => false
  | _ => true

def isFree : Phase β → Bool
  | away | waiting _ _ | holding _ _ => true
  | called _ | leading _ | gone => false

def Shows : Phase β → Stage β → Prop
  | waiting _ woken, stage => stage = .waiting .open woken
  | called _, stage => ∃ woken, stage = .waiting .open woken
  | holding _ outcome, stage => ∃ woken, stage = .waiting (.holds outcome) woken
  | leading _, stage => ∃ round, stage = .leading round
  | away, _ | gone, _ => False

def call : Phase β → Phase β
  | waiting a _ => called a
  | p => p

def hold (outcome : Outcome β) : Phase β → Phase β
  | called a => holding a outcome
  | p => p

def wake : Phase β → Phase β
  | waiting a _ => waiting a true
  | p => p

@[simp] theorem isHere_call (p : Phase β) : p.call.isHere = p.isHere := by cases p <;> rfl

@[simp] theorem isHere_hold (outcome : Outcome β) (p : Phase β) : (p.hold outcome).isHere = p.isHere := by cases p <;> rfl

@[simp] theorem isHere_wake (p : Phase β) : p.wake.isHere = p.isHere := by cases p <;> rfl

@[simp] theorem slot_wake (p : Phase β) : p.wake.slot = p.slot := by cases p <;> rfl

@[simp] theorem isFree_wake (p : Phase β) : p.wake.isFree = p.isFree := by cases p <;> rfl

end Phase

variable {keys : List κ} {phase : κ → Phase β} {m : Rendezvous κ β} {k j : κ} {a b : Nat}
  {woken : Bool} {outcome : Outcome β} {stage : Stage β}

def Full (keys : List κ) (phase : κ → Phase β) : Prop :=
  ∀ k ∈ keys, phase k = .gone ∨ ∃ a woken, phase k = .waiting a woken

/-- Every party is at its place: the leader of a round and those that it has called, or else parties
of which nobody leads. -/
structure Gathered (keys : List κ) (phase : κ → Phase β) (m : Rendezvous κ β) : Prop where
  slots : m.slots = (keys.filter fun k => (phase k).isHere).map fun k => (k, (phase k).slot)
  shows : ∀ k ∈ keys, ∀ a, (phase k).arrival? = some a →
    ∃ stage, m.arrivals[a]? = some ⟨k, false, stage⟩ ∧ (phase k).Shows stage
  led : m.leading = true → ∃ k ∈ keys, ∃ a round, phase k = .leading a ∧
    m.arrivals[a]? = some ⟨k, false, .leading round⟩ ∧ a ∈ round ∧
    ∀ j ∈ keys, j ≠ k → phase j = .gone ∨ ∃ b ∈ round, phase j = .called b
  free : m.leading = false → ∀ k ∈ keys, phase k = .gone ∨ (phase k).isFree = true

/-- No wakeup has been lost: when all parties have arrived, each of them is about to lead. -/
structure Orderly (keys : List κ) (phase : κ → Phase β) (m : Rendezvous κ β) : Prop
    extends Gathered keys phase m where
  roused : Full keys phase → ∀ k ∈ keys, ∀ a woken, phase k = .waiting a woken → woken = true

def callers (m : Rendezvous κ β) : List κ := m.arrivals.map (·.key)

theorem getElem?_modify_ite {α : Type} (f : α → α) (l : List α) (i j : Nat) :
    (l.modify i f)[j]? = if i = j then (l[j]?).map f else l[j]? := by
  split
  next h => rw [h, List.getElem?_modify_eq, Option.map_eq_map]
  next h => exact List.getElem?_modify_ne f l h

theorem map_modify_of_eq {α γ : Type} {f : α → α} {g : α → γ} (h : ∀ x, g (f x) = g x) (i : Nat)
    (l : List α) : (l.modify i f).map g = l.map g := by
  apply List.ext_getElem?
  intro j
  rw [List.getElem?_map, List.getElem?_map, getElem?_modify_ite]
  split <;> cases l[j]? <;> simp [h]

theorem stage?_eq {x : Arrival κ β} (ha : m.arrivals[a]? = some x) : m.stage? a = some x.stage := by
  rw [stage?, ha]
  rfl

theorem exists_of_stage? (ha : m.stage? a = some stage) :
    ∃ k c, m.arrivals[a]? = some ⟨k, c, stage⟩ := by
  obtain ⟨⟨k, c, stage⟩, hx, rfl⟩ := Option.map_eq_some_iff.1 ha
  exact ⟨k, c, hx⟩

theorem isCanceled_eq {x : Arrival κ β} (ha : m.arrivals[a]? = some x) : m.isCanceled a = x.canceled := by
  rw [isCanceled, ha]
  rfl

theorem callers_setStage : (m.setStage a stage).callers = m.callers := by
  apply map_modify_of_eq
  exact fun _ => rfl

theorem getElem?_setStage : (m.setStage a stage).arrivals[b]? =
    if a = b then (m.arrivals[b]?).map fun arrival => { arrival with stage } else m.arrivals[b]? :=
  getElem?_modify_ite ..

def Arrival.posted (mail : Mailbox β) (arrival : Arrival κ β) : Arrival κ β :=
  match arrival.stage with
  | .waiting .open woken => { arrival with stage := .waiting mail woken }
  | _ => arrival

theorem Arrival.key_posted (mail : Mailbox β) (arrival : Arrival κ β) :
    (arrival.posted mail).key = arrival.key := by
  rw [posted]
  split <;> rfl

theorem Arrival.posted_posted (outcome : Outcome β) (arrival : Arrival κ β) :
    (arrival.posted (.holds outcome)).posted (.holds outcome) = arrival.posted (.holds outcome) := by
  obtain ⟨key, canceled, stage⟩ := arrival
  cases stage with
  | waiting mailbox woken => cases mailbox <;> rfl
  | leading round => rfl
  | ended outcome => rfl
  | dropped => rfl

theorem post_eq (mail : Mailbox β) (a : Nat) :
    m.post mail a = { m with arrivals := m.arrivals.modify a (·.posted mail) } := rfl

theorem foldl_post_eq (round : List Nat) (m : Rendezvous κ β) (mail : Mailbox β) :
    ∃ arrivals, round.foldl (post · mail) m = { m with arrivals } := by
  induction round generalizing m with
  | nil => exact ⟨m.arrivals, rfl⟩
  | cons a round ih =>
    obtain ⟨arrivals, h⟩ := ih (m.post mail a)
    exact ⟨arrivals, h⟩

theorem callers_foldl_post (round : List Nat) (m : Rendezvous κ β) (mail : Mailbox β) :
    (round.foldl (post · mail) m).callers = m.callers := by
  induction round generalizing m with
  | nil => rfl
  | cons a round ih =>
    rw [List.foldl_cons, ih, post_eq]
    exact map_modify_of_eq (Arrival.key_posted mail) ..

theorem getElem?_foldl_post (round : List Nat) (m : Rendezvous κ β) (outcome : Outcome β) :
    (round.foldl (post · (.holds outcome)) m).arrivals[b]? =
      if b ∈ round then (m.arrivals[b]?).map (·.posted (.holds outcome)) else m.arrivals[b]? := by
  induction round generalizing m with
  | nil => rfl
  | cons a round ih =>
    rw [List.foldl_cons, ih, post_eq]
    dsimp only
    rw [getElem?_modify_ite]
    by_cases hab : a = b
    · subst hab
      rw [if_pos rfl, if_pos List.mem_cons_self]
      split
      · cases m.arrivals[a]? <;> simp [Arrival.posted_posted]
      · simp
    · have hmem : b ∈ a :: round ↔ b ∈ round := by
        rw [List.mem_cons]
        exact or_iff_right fun h => hab h.symm
      rw [if_neg hab]
      simp only [hmem]

def Arrival.wakened (arrival : Arrival κ β) : Arrival κ β :=
  match arrival.stage with
  | .waiting mailbox _ => { arrival with stage := .waiting mailbox true }
  | _ => arrival

theorem Arrival.key_wakened (arrival : Arrival κ β) : arrival.wakened.key = arrival.key := by
  rw [wakened]
  split <;> rfl

theorem wakeAll_eq (m : Rendezvous κ β) :
    m.wakeAll = { m with arrivals := m.arrivals.map (·.wakened) } := rfl

theorem callers_wakeAll : m.wakeAll.callers = m.callers := by
  rw [wakeAll_eq, callers, callers, List.map_map]
  exact List.map_congr_left fun arrival _ => Arrival.key_wakened arrival

theorem getElem?_wakeAll : m.wakeAll.arrivals[b]? = (m.arrivals[b]?).map (·.wakened) := by
  rw [wakeAll_eq, List.getElem?_map]

namespace Gathered

/-- While a party is at a place for parties of which nobody leads, no round is being led. -/
theorem not_leading (h : Gathered keys phase m) (hk : k ∈ keys) (hf : (phase k).isFree = true) :
    m.leading = false := by
  by_contra hl
  obtain ⟨j, -, a, round, hj, -, -, hothers⟩ := h.led (by simpa using hl)
  by_cases hkj : k = j
  · subst hkj
    rw [hj] at hf
    cases hf
  · rcases hothers k hk hkj with hp | ⟨b, -, hp⟩ <;> rw [hp] at hf <;> cases hf

theorem leading_of_leading (h : Gathered keys phase m) (hk : k ∈ keys) (hp : phase k = .leading a) :
    m.leading = true := by
  by_contra hl
  rcases h.free (by simpa using hl) k hk with hg | hf
  · cases hp.symm.trans hg
  · rw [hp] at hf
    cases hf

theorem leading_of_called (h : Gathered keys phase m) (hk : k ∈ keys) (hp : phase k = .called a) :
    m.leading = true := by
  by_contra hl
  rcases h.free (by simpa using hl) k hk with hg | hf
  · cases hp.symm.trans hg
  · rw [hp] at hf
    cases hf

theorem waiting (h : Gathered keys phase m) (hk : k ∈ keys) (hp : phase k = .waiting a woken) :
    m.arrivals[a]? = some ⟨k, false, .waiting .open woken⟩ := by
  obtain ⟨stage, ha, hs⟩ := h.shows k hk a (by rw [hp]; rfl)
  rw [hp] at hs
  have hs : stage = .waiting .open woken := hs
  rw [ha, hs]

theorem called (h : Gathered keys phase m) (hk : k ∈ keys) (hp : phase k = .called a) :
    ∃ woken, m.arrivals[a]? = some ⟨k, false, .waiting .open woken⟩ := by
  obtain ⟨stage, ha, hs⟩ := h.shows k hk a (by rw [hp]; rfl)
  rw [hp] at hs
  obtain ⟨woken, rfl⟩ := hs
  exact ⟨woken, ha⟩

theorem holding (h : Gathered keys phase m) (hk : k ∈ keys) (hp : phase k = .holding a outcome) :
    ∃ woken, m.arrivals[a]? = some ⟨k, false, .waiting (.holds outcome) woken⟩ := by
  obtain ⟨stage, ha, hs⟩ := h.shows k hk a (by rw [hp]; rfl)
  rw [hp] at hs
  obtain ⟨woken, rfl⟩ := hs
  exact ⟨woken, ha⟩

/-- The leader leads its own arrival and those of all others. -/
theorem leader (h : Gathered keys phase m) (hk : k ∈ keys) (hp : phase k = .leading a) :
    ∃ round, m.arrivals[a]? = some ⟨k, false, .leading round⟩ ∧ a ∈ round ∧
      ∀ j ∈ keys, j ≠ k → phase j = .gone ∨ ∃ b ∈ round, phase j = .called b := by
  obtain ⟨j, hj, b, round, hb, harrival, hmem, hothers⟩ := h.led (h.leading_of_leading hk hp)
  by_cases hkj : k = j
  · subst hkj
    cases hp.symm.trans hb
    exact ⟨round, harrival, hmem, hothers⟩
  · rcases hothers k hk hkj with hg | ⟨_, -, hc⟩
    · cases hp.symm.trans hg
    · cases hp.symm.trans hc

theorem ne_of_ne (h : Gathered keys phase m) {arrival : Arrival κ β} (hj : j ∈ keys)
    (hb : (phase j).arrival? = some b) (ha : m.arrivals[a]? = some arrival) (hne : j ≠ arrival.key) :
    a ≠ b := by
  rintro rfl
  obtain ⟨stage, hb, -⟩ := h.shows j hj _ hb
  cases ha.symm.trans hb
  exact hne rfl

end Gathered

theorem mapM_snd_eq (slots : List (κ × Option Nat)) : slots.mapM (·.2) =
    if ∀ s ∈ slots, s.2.isSome = true then some (slots.filterMap (·.2)) else none := by
  induction slots with
  | nil => rfl
  | cons s slots ih =>
    rw [List.mapM_cons, ih]
    obtain ⟨key, _ | a⟩ := s
    · simp
    · simp only [List.forall_mem_cons, Option.isSome_some, true_and, List.filterMap_cons]
      split <;> rfl

namespace Gathered

theorem mem_slots (h : Gathered keys phase m) (hk : k ∈ keys) (hh : (phase k).isHere = true) :
    (k, (phase k).slot) ∈ m.slots := by
  rw [h.slots]
  exact List.mem_map.2 ⟨k, List.mem_filter.2 ⟨hk, hh⟩, rfl⟩

section

variable [DecidableEq κ]

theorem slot?_eq (h : Gathered keys phase m) (hk : k ∈ keys) (hh : (phase k).isHere = true) :
    m.slot? k = some (phase k).slot := by
  rw [slot?]
  cases hfind : m.slots.find? fun s => s.1 = k with
  | none => simpa using List.find?_eq_none.1 hfind _ (h.mem_slots hk hh)
  | some s =>
    have hmem := List.mem_of_find?_eq_some hfind
    have hkey := List.find?_some hfind
    rw [h.slots] at hmem
    obtain ⟨j, -, rfl⟩ := List.mem_map.1 hmem
    simp only [decide_eq_true_eq] at hkey
    rw [hkey]
    rfl

theorem isRegistered (h : Gathered keys phase m) (hk : k ∈ keys) (hh : (phase k).isHere = true) :
    m.isRegistered k = true := by
  rw [Rendezvous.isRegistered, List.any_eq_true]
  exact ⟨_, h.mem_slots hk hh, by simp⟩

end

theorem complete?_eq_none (h : Gathered keys phase m) (hn : ¬ Full keys phase) :
    m.complete? = none := by
  rw [Full] at hn
  push Not at hn
  obtain ⟨k, hk, hg, hw⟩ := hn
  have hh : (phase k).isHere = true := by
    cases hp : phase k <;> simp [hp, Phase.isHere] at hg ⊢
  have hslot : (phase k).slot = none := by
    cases hp : phase k <;> simp [hp, Phase.slot] at hw ⊢
  rw [complete?]
  split
  · rfl
  · rw [mapM_snd_eq, if_neg]
    intro hall
    have := hall _ (h.mem_slots hk hh)
    rw [hslot] at this
    cases this

theorem exists_complete? (h : Gathered keys phase m) (hk : k ∈ keys) (hp : phase k = .waiting a woken)
    (hf : Full keys phase) : ∃ round, m.complete? = some round ∧
      ∀ j ∈ keys, ∀ b woken, phase j = .waiting b woken → b ∈ round := by
  have hmem (j : κ) (hj : j ∈ keys) (b : Nat) (woken : Bool) (hp : phase j = .waiting b woken) :
      (j, some b) ∈ m.slots := by
    have := h.mem_slots hj (by rw [hp]; rfl)
    rwa [hp] at this
  have hleading : m.leading = false := h.not_leading hk (by rw [hp]; rfl)
  have hne : m.slots.isEmpty = false := by
    rw [List.isEmpty_eq_false_iff]
    exact List.ne_nil_of_mem (hmem k hk a woken hp)
  have hall : ∀ s ∈ m.slots, s.2.isSome = true := by
    intro s hs
    rw [h.slots] at hs
    obtain ⟨j, hj, rfl⟩ := List.mem_map.1 hs
    obtain ⟨hj, hh⟩ := List.mem_filter.1 hj
    rcases hf j hj with hg | ⟨b, woken, hb⟩
    · rw [hg] at hh
      cases hh
    · rw [hb]
      rfl
  refine ⟨m.slots.filterMap (·.2), ?_, fun j hj b woken hp => ?_⟩
  · rw [complete?, hleading, hne, mapM_snd_eq, if_pos hall]
    rfl
  · exact List.mem_filterMap.2 ⟨_, hmem j hj b woken hp, rfl⟩

end Gathered

theorem stage?_setStage {arrival : Arrival κ β} (ha : m.arrivals[a]? = some arrival) :
    (m.setStage a stage).stage? a = some stage := by
  rw [stage?, getElem?_setStage, if_pos rfl, ha]
  rfl

/-- What an operation leads to: the new places, how many rounds have ended, and who has arrived. -/
structure Passes (keys : List κ) (phase : κ → Phase β) (ended : Nat) (come : List κ)
    (m m' : Rendezvous κ β) : Prop extends Orderly keys phase m' where
  rounds : m'.rounds = m.rounds + ended
  callers : m'.callers = m.callers ++ come

variable [DecidableEq κ]

theorem look_open (ha : m.arrivals[a]? = some ⟨k, false, .waiting .open woken⟩) :
    m.look a = m.setStage a (.waiting .open false) := by
  rw [look, ha]
  rfl

theorem look_holds (ha : m.arrivals[a]? = some ⟨k, false, .waiting (.holds outcome) woken⟩) :
    m.look a = m.setStage a (.ended outcome) := by
  rw [look, ha]

/-- The parties that are here stay when one goes elsewhere and nobody comes or leaves. -/
theorem filter_isHere_update {phase' : κ → Phase β} {p : Phase β}
    (hothers : ∀ j, (phase' j).isHere = (phase j).isHere) (hp : p.isHere = (phase k).isHere) :
    keys.filter (fun j => (Function.update phase' k p j).isHere) =
      keys.filter fun j => (phase j).isHere := by
  refine List.filter_congr fun j _ => ?_
  by_cases hjk : j = k
  · rw [hjk, Function.update_self, hp]
  · rw [Function.update_of_ne hjk, hothers]

theorem not_full_update_away (hk : k ∈ keys) : ¬ Full keys (Function.update phase k .away) := by
  intro hf
  rcases hf k hk with h | ⟨a, woken, h⟩ <;> rw [Function.update_self] at h <;> cases h

namespace Gathered

theorem setSlot_slot (h : Gathered keys phase m) : (m.setSlot k (phase k).slot).slots = m.slots := by
  rw [setSlot]
  refine (List.map_congr_left fun s hs => ?_).trans (List.map_id _)
  rw [h.slots] at hs
  obtain ⟨j, -, rfl⟩ := List.mem_map.1 hs
  split
  next hjk =>
    have hjk : j = k := hjk
    subst hjk
    rfl
  next => rfl

/-- One party goes to another place while nobody leads. -/
theorem update {m' : Rendezvous κ β} {p : Phase β} (h : Gathered keys phase m)
    (hf : (phase k).isFree = true) (hp : p.isFree = true) (hl : m'.leading = false)
    (hslots : m'.slots = (m.setSlot k p.slot).slots)
    (hshows : ∀ a, p.arrival? = some a →
      ∃ stage, m'.arrivals[a]? = some ⟨k, false, stage⟩ ∧ p.Shows stage)
    (hothers : ∀ (b : Nat) (arrival : Arrival κ β), m.arrivals[b]? = some arrival →
      arrival.key ≠ k → m'.arrivals[b]? = some arrival)
    (hfree : ∀ j ∈ keys, phase j = .gone ∨ (phase j).isFree = true) :
    Gathered keys (Function.update phase k p) m' := by
  have hhere {q : Phase β} (hq : q.isFree = true) : q.isHere = true := by
    cases q <;> first | rfl | cases hq
  refine ⟨?_, fun j hj a ha => ?_, fun h => ?_, fun _ j hj => ?_⟩
  · rw [hslots, setSlot]
    dsimp only
    rw [h.slots, List.map_map]
    rw [filter_isHere_update (fun _ => rfl) ((hhere hp).trans (hhere hf).symm)]
    refine List.map_congr_left fun j _ => ?_
    by_cases hjk : j = k
    · simp [hjk]
    · simp [hjk]
  · by_cases hjk : j = k
    · subst hjk
      rw [Function.update_self] at ha ⊢
      exact hshows a ha
    · rw [Function.update_of_ne hjk] at ha ⊢
      obtain ⟨stage, hb, hs⟩ := h.shows j hj a ha
      exact ⟨stage, hothers a _ hb hjk, hs⟩
  · cases hl.symm.trans h
  · by_cases hjk : j = k
    · rw [hjk, Function.update_self]
      exact .inr hp
    · rw [Function.update_of_ne hjk]
      exact hfree j hj

theorem look {p : Phase β} {stage stage' : Stage β} (h : Gathered keys phase m) (hk : k ∈ keys)
    (hf : (phase k).isFree = true) (hp : p.isFree = true) (hslot : p.slot = (phase k).slot)
    (ha : m.arrivals[a]? = some ⟨k, false, stage⟩)
    (hshows : ∀ b, p.arrival? = some b → b = a ∧ p.Shows stage') :
    Gathered keys (Function.update phase k p) (m.setStage a stage') := by
  have hl := h.not_leading hk hf
  refine h.update hf hp hl ?_ (fun b hb => ?_) (fun b arrival hb hne => ?_) (h.free hl)
  · rw [hslot, h.setSlot_slot]
    rfl
  · obtain ⟨rfl, hs⟩ := hshows b hb
    refine ⟨stage', ?_, hs⟩
    rw [getElem?_setStage, if_pos rfl, ha]
    rfl
  · rw [getElem?_setStage, if_neg, hb]
    rintro rfl
    cases ha.symm.trans hb
    exact hne rfl

/-- A party whose arrival has been woken before all have arrived waits again. -/
theorem wait (h : Gathered keys phase m) (hk : k ∈ keys) (hp : phase k = .waiting a woken)
    (hn : ¬ Full keys phase) :
    Passes keys (Function.update phase k (.waiting a false)) 0 [] m
      (m.setStage a (.waiting .open false)) := by
  have hlook : Gathered keys (Function.update phase k (.waiting a false))
      (m.setStage a (.waiting .open false)) := by
    refine h.look hk (by rw [hp]; rfl) rfl (by rw [hp]; rfl) (h.waiting hk hp) fun b hb => ?_
    cases hb
    exact ⟨rfl, rfl⟩
  refine ⟨⟨hlook, fun hf => absurd (fun j hj => ?_) hn⟩, rfl, by simp [callers_setStage]⟩
  by_cases hjk : j = k
  · exact .inr ⟨a, woken, hjk ▸ hp⟩
  · have := hf j hj
    rwa [Function.update_of_ne hjk] at this

theorem takeOutcome (h : Gathered keys phase m) (hk : k ∈ keys) (hp : phase k = .holding a outcome) :
    Passes keys (Function.update phase k .away) 0 [] m (m.step a) ∧
      (m.step a).stage? a = some (.ended outcome) := by
  obtain ⟨woken, ha⟩ := h.holding hk hp
  have hstep : m.step a = m.setStage a (.ended outcome) := by
    rw [step, ha]
    exact look_holds ha
  rw [hstep]
  refine ⟨⟨⟨?_, fun hf => absurd hf (not_full_update_away hk)⟩, rfl, by simp [callers_setStage]⟩,
    stage?_setStage ha⟩
  exact h.look hk (by rw [hp]; rfl) rfl (by rw [hp]; rfl) ha nofun

/-- The last party to arrive, or the first one to be woken then, leads the round. -/
theorem lead (h : Gathered keys phase m) (hk : k ∈ keys) (hp : phase k = .waiting a woken)
    (hf : Full keys phase) :
    Passes keys (Function.update (fun j => (phase j).call) k (.leading a)) 0 [] m (m.tryLead a) ∧
      ∃ round, (m.tryLead a).stage? a = some (.leading round) := by
  obtain ⟨round, hround, hmem⟩ := h.exists_complete? hk hp hf
  have ha := h.waiting hk hp
  set cleared : Rendezvous κ β :=
    { m with slots := m.slots.map fun s => (s.1, none), leading := true } with hcleared
  have hstage : (cleared.setStage a (.leading round)).arrivals[a]? =
      some ⟨k, false, .leading round⟩ := by
    rw [getElem?_setStage, if_pos rfl, hcleared, ha]
    rfl
  have hlead : m.tryLead a =
      { cleared.setStage a (.leading round) with led := cleared.led ++ [a] } := by
    have hnot : (cleared.setStage a (.leading round)).isCanceled a = false := isCanceled_eq hstage
    rw [tryLead, hround]
    simp only [Rendezvous.lead, ← hcleared, hnot]
    rfl
  have hother (j : κ) (hj : j ∈ keys) (hjk : j ≠ k) :
      phase j = .gone ∨ ∃ b woken, phase j = .waiting b woken := hf j hj
  have hothers (j : κ) (hj : j ∈ keys) (hjk : j ≠ k) :
      (phase j).call = .gone ∨ ∃ b ∈ round, (phase j).call = .called b := by
    rcases hf j hj with hg | ⟨b, w, hb⟩
    · exact .inl (by rw [hg]; rfl)
    · exact .inr ⟨b, hmem j hj b w hb, by rw [hb]; rfl⟩
  rw [hlead]
  refine ⟨⟨⟨⟨?_, ?_, ?_, nofun⟩, ?_⟩, rfl, callers_setStage.trans (List.append_nil _).symm⟩,
    round, ?_⟩
  · change m.slots.map _ = _
    rw [h.slots, List.map_map]
    rw [filter_isHere_update (fun j => (phase j).isHere_call) (by rw [hp]; rfl)]
    refine List.map_congr_left fun j hj => ?_
    by_cases hjk : j = k
    · simp [hjk, Phase.slot]
    · rw [Function.update_of_ne hjk]
      rcases hothers j (List.mem_of_mem_filter hj) hjk with hg | ⟨b, -, hb⟩
      · simp [hg, Phase.slot]
      · simp [hb, Phase.slot]
  · intro j hj b hb
    by_cases hjk : j = k
    · subst hjk
      rw [Function.update_self] at hb ⊢
      cases hb
      exact ⟨_, hstage, round, rfl⟩
    · rw [Function.update_of_ne hjk] at hb ⊢
      rcases hf j hj with hg | ⟨c, w, hc⟩
      · rw [hg] at hb
        cases hb
      · have hne : a ≠ c := h.ne_of_ne hj (by rw [hc]; rfl) ha hjk
        rw [hc] at hb ⊢
        cases hb
        refine ⟨.waiting .open w, ?_, w, rfl⟩
        change (cleared.setStage a (.leading round)).arrivals[b]? = _
        rw [getElem?_setStage, if_neg hne]
        exact h.waiting hj hc
  · intro _
    refine ⟨k, hk, a, round, Function.update_self .., hstage, hmem k hk a woken hp, fun j hj hjk => ?_⟩
    rw [Function.update_of_ne hjk]
    exact hothers j hj hjk
  · intro hfull
    rcases hfull k hk with h | ⟨b, w, h⟩ <;> rw [Function.update_self] at h <;> cases h
  · rw [stage?]
    change ((cleared.setStage a (.leading round)).arrivals[a]?).map _ = _
    rw [hstage]
    rfl

end Gathered

namespace Orderly

/-- An arrival that waits is stepped: it leads if all have arrived, and it waits on otherwise. -/
theorem step (h : Orderly keys phase m) (hk : k ∈ keys) (hp : phase k = .waiting a woken) :
    (Full keys phase ∧
      Passes keys (Function.update (fun j => (phase j).call) k (.leading a)) 0 [] m (m.step a) ∧
        ∃ round, (m.step a).stage? a = some (.leading round)) ∨
    (¬ Full keys phase ∧ Passes keys (Function.update phase k (.waiting a false)) 0 [] m (m.step a) ∧
      (m.step a).stage? a = some (.waiting .open false)) := by
  have ha := h.waiting hk hp
  by_cases hf : Full keys phase
  · have hw := h.roused hf k hk a woken hp
    subst hw
    have hstep : m.step a = m.tryLead a := by rw [Rendezvous.step, ha]
    rw [hstep]
    exact .inl ⟨hf, h.lead hk hp hf⟩
  · have hstep : m.step a = m.setStage a (.waiting .open false) := by
      rw [Rendezvous.step, ha]
      cases woken with
      | true =>
        change m.tryLead a = _
        rw [tryLead, h.complete?_eq_none hf]
        exact look_open ha
      | false => exact look_open ha
    rw [hstep]
    exact .inr ⟨hf, h.wait hk hp hf, stage?_setStage ha⟩

/-- An arrival that belongs to the round that is being led waits on. -/
theorem stepCalled (h : Orderly keys phase m) (hk : k ∈ keys) (hp : phase k = .called a) :
    Passes keys phase 0 [] m (m.step a) ∧ (m.step a).stage? a = some (.waiting .open false) := by
  obtain ⟨woken, ha⟩ := h.called hk hp
  have hl := h.leading_of_called hk hp
  have hstep : m.step a = m.setStage a (.waiting .open false) := by
    rw [Rendezvous.step, ha]
    cases woken with
    | true =>
      change m.tryLead a = _
      rw [tryLead, complete?, hl]
      exact look_open ha
    | false => exact look_open ha
  rw [hstep]
  refine ⟨⟨⟨⟨h.slots, fun j hj b hb => ?_, fun _ => ?_, h.free⟩, h.roused⟩, rfl,
    by simp [callers_setStage]⟩, stage?_setStage ha⟩
  · by_cases hjk : j = k
    · subst hjk
      rw [hp] at hb ⊢
      cases hb
      refine ⟨.waiting .open false, ?_, false, rfl⟩
      rw [getElem?_setStage, if_pos rfl, ha]
      rfl
    · rw [getElem?_setStage, if_neg (h.ne_of_ne hj hb ha hjk)]
      exact h.shows j hj b hb
  · obtain ⟨j, hj, b, round, hpj, hb, hmem, hothers⟩ := h.led hl
    refine ⟨j, hj, b, round, hpj, ?_, hmem, hothers⟩
    rw [getElem?_setStage, if_neg, hb]
    rintro rfl
    cases ha.symm.trans hb

/-- A party arrives: it leads if it is the last one, and it waits otherwise. -/
theorem arrive (h : Orderly keys phase m) (hk : k ∈ keys) (hp : phase k = .away) :
    ((∀ j ∈ keys, j ≠ k → phase j = .gone ∨ ∃ b woken, phase j = .waiting b woken) ∧
      Passes keys (Function.update (fun j => (phase j).call) k (.leading m.next)) 0 [k] m
        (m.arrive k false) ∧ ∃ round, (m.arrive k false).stage? m.next = some (.leading round)) ∨
    (Passes keys (Function.update phase k (.waiting m.next false)) 0 [k] m (m.arrive k false) ∧
      (m.arrive k false).stage? m.next = some (.waiting .open false)) := by
  have hslot : m.slot? k = some none := by
    rw [h.slot?_eq hk (by rw [hp]; rfl), hp]
    rfl
  obtain ⟨m₁, hm₁⟩ : ∃ m₁ : Rendezvous κ β, m₁ = setSlot
      { m with arrivals := m.arrivals ++ [⟨k, false, .waiting .open false⟩] } k (some m.next) :=
    ⟨_, rfl⟩
  have harrive : m.arrive k false = m₁.tryLead m.next := by
    rw [Rendezvous.arrive, hslot, hm₁]
  have hcallers : m₁.callers = m.callers ++ [k] := by
    rw [callers, hm₁]
    exact List.map_append
  have hl : m.leading = false := h.not_leading hk (by rw [hp]; rfl)
  have hgathered : Gathered keys (Function.update phase k (.waiting m.next false)) m₁ := by
    rw [hm₁]
    refine h.update (by rw [hp]; rfl) rfl hl rfl (fun b hb => ?_) (fun b arrival hb _ => ?_) (h.free hl)
    · cases hb
      exact ⟨_, List.getElem?_concat_length, rfl⟩
    · exact (List.getElem?_append_left (List.getElem?_eq_some_iff.1 hb).1).trans hb
  have hwaits : Function.update phase k (.waiting m.next false) k = .waiting m.next false :=
    Function.update_self ..
  rw [harrive]
  by_cases hf : Full keys (Function.update phase k (.waiting m.next false))
  · obtain ⟨hpasses, hround⟩ := hgathered.lead hk hwaits hf
    have hphase : Function.update
        (fun j => (Function.update phase k (.waiting m.next false) j).call) k (.leading m.next) =
        Function.update (fun j => (phase j).call) k (.leading m.next) := by
      funext j
      by_cases hjk : j = k
      · rw [hjk, Function.update_self, Function.update_self]
      · rw [Function.update_of_ne hjk, Function.update_of_ne hjk, Function.update_of_ne hjk]
    rw [hphase] at hpasses
    refine .inl ⟨fun j hj hjk => ?_, ⟨hpasses.toOrderly, hpasses.rounds.trans (by rw [hm₁]; rfl), ?_⟩,
      hround⟩
    · have := hf j hj
      rwa [Function.update_of_ne hjk] at this
    · rw [hpasses.callers, hcallers, List.append_nil]
  · have htry : m₁.tryLead m.next = m₁.setStage m.next (.waiting .open false) := by
      rw [tryLead, hgathered.complete?_eq_none hf]
      exact look_open (hgathered.waiting hk hwaits)
    have hpasses := hgathered.wait hk hwaits hf
    rw [Function.update_idem] at hpasses
    rw [htry]
    refine .inr ⟨⟨hpasses.toOrderly, hpasses.rounds.trans (by rw [hm₁]; rfl), ?_⟩,
      stage?_setStage (hgathered.waiting hk hwaits)⟩
    rw [hpasses.callers, hcallers, List.append_nil]

theorem settle (h : Orderly keys phase m) (hk : k ∈ keys) (hp : phase k = .leading a)
    (outcome : Outcome β) :
    Passes keys (Function.update (fun j => (phase j).hold outcome) k .away) 1 [] m
      (m.settle a outcome) ∧ (m.settle a outcome).stage? a = some (.ended outcome) := by
  obtain ⟨round, ha, hmem, hothers⟩ := h.leader hk hp
  have hstage : m.stage? a = some (.leading round) := stage?_eq ha
  obtain ⟨ended, hended⟩ : ∃ ended : Rendezvous κ β, ended =
      { m.setStage a (.waiting .open true) with leading := false, rounds := m.rounds + 1 } := ⟨_, rfl⟩
  obtain ⟨arrivals, hfold⟩ := foldl_post_eq round ended (.holds outcome)
  obtain ⟨m₁, hm₁⟩ : ∃ m₁ : Rendezvous κ β, m₁ = { ended with arrivals }.wakeAll := ⟨_, rfl⟩
  have hget (b : Nat) (hb : b ∈ round) : m₁.arrivals[b]? =
      ((ended.arrivals[b]?).map (·.posted (.holds outcome))).map (·.wakened) := by
    rw [hm₁, getElem?_wakeAll, ← hfold, getElem?_foldl_post, if_pos hb]
  have ha₁ : m₁.arrivals[a]? = some ⟨k, false, .waiting (.holds outcome) true⟩ := by
    rw [hget a hmem, hended, getElem?_setStage, if_pos rfl, ha]
    rfl
  have hsettle : m.settle a outcome = m₁.setStage a (.ended outcome) := by
    rw [Rendezvous.settle, hstage, hm₁, ← hfold, hended]
    rw [hm₁, ← hfold, hended] at ha₁
    exact look_holds ha₁
  have hcallers : m₁.callers = m.callers := by
    rw [hm₁, callers_wakeAll, ← hfold, callers_foldl_post, hended]
    exact callers_setStage
  have hothers (j : κ) (hj : j ∈ keys) (hjk : j ≠ k) : (phase j).hold outcome = .gone ∨
      ∃ b ∈ round, phase j = .called b ∧ (phase j).hold outcome = .holding b outcome := by
    rcases hothers j hj hjk with hg | ⟨b, hb, hc⟩
    · exact .inl (by rw [hg]; rfl)
    · exact .inr ⟨b, hb, hc, by rw [hc]; rfl⟩
  rw [hsettle]
  refine ⟨⟨⟨⟨?_, fun j hj b hb => ?_, fun hl => ?_, fun _ j hj => ?_⟩, ?_⟩, ?_, ?_⟩,
    stage?_setStage ha₁⟩
  · have hslots : (m₁.setStage a (.ended outcome)).slots = m.slots := by
      rw [hm₁, hended]
      rfl
    rw [hslots, h.slots]
    rw [filter_isHere_update (fun j => (phase j).isHere_hold outcome) (by rw [hp]; rfl)]
    refine List.map_congr_left fun j hj => ?_
    by_cases hjk : j = k
    · rw [hjk, Function.update_self, hp]
      rfl
    · rw [Function.update_of_ne hjk]
      rcases hothers j (List.mem_of_mem_filter hj) hjk with hg | ⟨b, -, hc, hb⟩
      · rw [hg]
        cases hpj : phase j <;> rw [hpj] at hg <;> cases hg
      · rw [hb, hc]
        rfl
  · by_cases hjk : j = k
    · rw [hjk, Function.update_self] at hb
      cases hb
    · rw [Function.update_of_ne hjk] at hb ⊢
      rcases hothers j hj hjk with hg | ⟨c, hmem, hc, hhold⟩
      · rw [hg] at hb
        cases hb
      · rw [hhold] at hb ⊢
        cases hb
        obtain ⟨woken, hb⟩ := h.called hj hc
        have hne : a ≠ b := h.ne_of_ne hj (by rw [hc]; rfl) ha hjk
        refine ⟨.waiting (.holds outcome) true, ?_, true, rfl⟩
        rw [getElem?_setStage, if_neg hne, hget b hmem, hended, getElem?_setStage, if_neg hne, hb]
        rfl
  · rw [hm₁, hended] at hl
    cases hl
  · by_cases hjk : j = k
    · rw [hjk, Function.update_self]
      exact .inr rfl
    · rw [Function.update_of_ne hjk]
      rcases hothers j hj hjk with hg | ⟨b, -, -, hb⟩
      · exact .inl hg
      · exact .inr (by rw [hb]; rfl)
  · exact fun hf => absurd hf (not_full_update_away hk)
  · rw [hm₁, hended]
    rfl
  · rw [callers_setStage, hcallers, List.append_nil]

/-- A party that is away leaves, and wakes the others. -/
theorem leave (h : Orderly keys phase m) (hk : k ∈ keys) (hp : phase k = .away) :
    (m.leave k).1 = .ok () ∧
      Passes keys (Function.update (fun j => (phase j).wake) k .gone) 0 [] m (m.leave k).2 := by
  have hhere : (phase k).isHere = true := by rw [hp]; rfl
  have hslot : m.slot? k = some none := by
    rw [h.slot?_eq hk hhere, hp]
    rfl
  have hleave : m.leave k =
      (.ok (), wakeAll { m with slots := m.slots.filter fun s => s.1 ≠ k }) := by
    rw [Rendezvous.leave, if_pos (h.isRegistered hk hhere), closeSlot, hslot]
  have hl : m.leading = false := h.not_leading hk (by rw [hp]; rfl)
  rw [hleave]
  refine ⟨rfl, ⟨⟨?_, fun j hj b hb => ?_, fun hl' => ?_, fun _ j hj => ?_⟩, ?_⟩, rfl, ?_⟩
  · change m.slots.filter _ = _
    rw [h.slots, List.filter_map, List.filter_filter]
    have hfilter : keys.filter (fun j =>
        (Function.update (fun j => (phase j).wake) k .gone j).isHere) =
        keys.filter fun j => decide (j ≠ k) && (phase j).isHere := by
      refine List.filter_congr fun j _ => ?_
      by_cases hjk : j = k
      · simp [hjk, Phase.isHere]
      · simp [hjk]
    rw [hfilter]
    refine List.map_congr_left fun j hj => ?_
    have hjk : j ≠ k := by
      have := (List.mem_filter.1 hj).2
      simp only [Bool.and_eq_true, Function.comp_apply, decide_eq_true_eq] at this
      exact this.1
    rw [Function.update_of_ne hjk, Phase.slot_wake]
  · by_cases hjk : j = k
    · rw [hjk, Function.update_self] at hb
      cases hb
    · rw [Function.update_of_ne hjk] at hb ⊢
      have harrival : (phase j).arrival? = some b := by
        rw [← hb]
        cases phase j <;> rfl
      obtain ⟨stage, hstage, hs⟩ := h.shows j hj b harrival
      rw [getElem?_wakeAll]
      change ∃ stage', (m.arrivals[b]?).map _ = _ ∧ _
      rw [hstage]
      cases hpj : phase j <;> rw [hpj] at hs harrival
      · cases harrival
      · cases hs
        exact ⟨_, rfl, rfl⟩
      · obtain ⟨woken, rfl⟩ := hs
        exact ⟨_, rfl, true, rfl⟩
      · obtain ⟨woken, rfl⟩ := hs
        exact ⟨_, rfl, true, rfl⟩
      · obtain ⟨round, rfl⟩ := hs
        exact ⟨_, rfl, round, rfl⟩
      · cases harrival
  · cases hl.symm.trans hl'
  · by_cases hjk : j = k
    · rw [hjk, Function.update_self]
      exact .inl rfl
    · rw [Function.update_of_ne hjk, Phase.isFree_wake]
      rcases h.free hl j hj with hg | hf
      · exact .inl (by rw [hg]; rfl)
      · exact .inr hf
  · intro hf j hj b woken hb
    by_cases hjk : j = k
    · rw [hjk, Function.update_self] at hb
      cases hb
    · rw [Function.update_of_ne hjk] at hb
      cases hpj : phase j <;> rw [hpj] at hb <;> cases hb
      rfl
  · rw [callers_wakeAll, List.append_nil]
    rfl

end Orderly

def assembled (keys : List κ) : Rendezvous κ β := ⟨keys.map fun k => (k, none), [], false, 0, []⟩

theorem isRegistered_assembled (keys : List κ) (k : κ) :
    (assembled keys : Rendezvous κ β).isRegistered k = decide (k ∈ keys) := by
  rw [Bool.eq_iff_iff]
  simp [isRegistered, assembled]

/-- Parties that are registered one after the other. -/
theorem foldl_register_eq (keys come : List κ) (h : (come ++ keys).Nodup) :
    keys.foldl (fun m k => (m.register k).2) (assembled come : Rendezvous κ β) =
      assembled (come ++ keys) := by
  induction keys generalizing come with
  | nil => rw [List.append_nil]; rfl
  | cons k keys ih =>
    have hk : k ∉ come := by
      intro hk
      exact (List.nodup_append.1 h).2.2 k hk k List.mem_cons_self rfl
    have hregister : ((assembled come : Rendezvous κ β).register k).2 = assembled (come ++ [k]) := by
      rw [register, isRegistered_assembled, decide_eq_false hk]
      simp [assembled]
    rw [List.foldl_cons, hregister, ih _ (by simpa using h), List.append_assoc]
    rfl

omit [DecidableEq κ] in
theorem orderly_assembled (keys : List κ) :
    Orderly keys (fun _ => .away) (assembled keys : Rendezvous κ β) where
  slots := by simp [assembled, Phase.isHere, Phase.slot]
  shows k _ a ha := by cases ha
  led h := by cases h
  free _ k _ := .inr rfl
  roused _ k _ a woken h := by cases h

end BalancerSync.Rendezvous
