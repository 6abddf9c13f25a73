import BalancerSync.Engine.Readiness
import BalancerSync.Proofs.Looks

namespace BalancerSync

open Program

variable {σ : Type}

namespace Look

/-- How the object is seen. One that is gone has failed. Nothing is seen if the provider fails. -/
def readiness? (l : Look) : Option Readiness :=
  match l.answer with
  | .ok r => some r.readiness
  | .error .notFound => some .failed
  | .error _ => none

def IsRefused (l : Look) (refusal : Refusal) : Prop := l.answer = .error refusal ∧ refusal ≠ .notFound

variable {l : Look} {refusal : Refusal}

theorem readiness?_of_ok {r : Resource} (h : l.answer = .ok r) :
    l.readiness? = some r.readiness := by rw [readiness?, h]

theorem IsRefused.readiness?_eq (h : l.IsRefused refusal) : l.readiness? = none := by
  obtain ⟨ha, hne⟩ := h
  cases refusal with
  | notFound => exact absurd rfl hne
  | _ => rw [readiness?, ha]

end Look

/-- Passes over some objects, with a pause after each of them but the last one. -/
structure Wait where
  /-- The passes before the last one, and how many milliseconds the pause after each of them took. -/
  paused : List (List Look × Nat)
  last : List Look

namespace Wait

def passes (w : Wait) : List (List Look) := w.paused.map (·.1) ++ [w.last]

def moments (w : Wait) : List Moment :=
  (w.paused.flatMap fun (pass, milliseconds) => pass.map .saw ++ [.slept milliseconds])
    ++ w.last.map .saw

end Wait

namespace Engine

variable {steps pauses : Nat} {objects : List Resource} {passes opens : List (List Look)}
  {looks seen last : List Look} {l : Look} {t : Target} {first : Bool}
  {tracked tracked' : List Tracked} {out : Except Failure Unit}

def targets (objects : List Resource) : List Target :=
  objects.filterMap fun r => r.identifier.map (r.kind, ·)

def latest? (looks : List Look) (t : Target) : Option Readiness :=
  (looks.reverse.find? fun l => l.target = t).bind Look.readiness?

/-- The targets that were not seen ready at the last look, if there was one. -/
def due (objects : List Resource) (looks : List Look) : List Target :=
  (targets objects).filter fun t => latest? looks t ≠ some .ready

/-- What a wait may come to. -/
structure Awaits (steps : Nat) (objects : List Resource) (passes : List (List Look))
    (out : Except Failure Unit) : Prop where
  few : passes.length ≤ steps + 1
  /-- A pass looks at all objects that were not seen ready, in order, or at the first of them if the
  provider fails. The first pass looks at all objects. -/
  looks_at_due : ∀ before pass after, passes = before ++ pass :: after →
    pass.map Look.target <+: due objects before.flatten ∧
    ((∀ l ∈ pass, l.readiness? ≠ none) → pass.map Look.target = due objects before.flatten)
  first : ∃ pass after, passes = pass :: after ∧
    ((∀ l ∈ pass, l.readiness? ≠ none) → pass.map Look.target = targets objects)
  ready_once : passes.flatten.Pairwise fun a b => a.readiness? = some .ready → b.id ≠ a.id
  /-- There is another pass only while something is progressing. -/
  goes_on : ∀ before pass after, passes = before ++ pass :: after → before ≠ [] →
    ∃ t ∈ targets objects, latest? before.flatten t = some .progressing
  /-- The provider fails at the last look only, and then that is told. -/
  refused_last : ∀ l ∈ passes.flatten.dropLast, l.readiness? ≠ none
  refused : ∀ l ∈ passes.flatten, ∀ refusal, l.IsRefused refusal →
    out = .error (.provider refusal)
  /-- Objects are seen failed in the last pass only, and then all of them are told. -/
  failed_last : ∀ pass ∈ passes.dropLast, ∀ l ∈ pass, l.readiness? ≠ some .failed
  failed : (∀ l ∈ passes.flatten, l.readiness? ≠ none) →
    (∃ l ∈ passes.flatten, l.readiness? = some .failed) → ∃ before last,
    passes = before ++ [last] ∧ out = .error (.resourcesFailed
      ((last.filter fun l => l.readiness? = some .failed).map Look.id))
  ok_iff : out = .ok () ↔ ∃ p, 0 < p ∧ p ≤ passes.length ∧
    ∀ t ∈ targets objects, latest? (passes.take p).flatten t = some .ready
  /-- Otherwise the wait goes on for as long as it may. -/
  timeout : (∀ l ∈ passes.flatten, l.readiness? ≠ none ∧ l.readiness? ≠ some .failed) →
    out ≠ .ok () → ∃ ids, out = .error (.waitTimeout ids)
  timeout_last : ∀ ids, out = .error (.waitTimeout ids) → passes.length = steps + 1 ∧
    ids = ((targets objects).filter fun t => latest? passes.flatten t = some .progressing).map (·.2)

theorem latest?_nil (t : Target) : latest? [] t = none := rfl

theorem latest?_append_of_ne (h : ∀ l ∈ looks, l.target ≠ t) :
    latest? (seen ++ looks) t = latest? seen t := by
  have hnone : (looks.reverse.find? fun l => l.target = t) = none := by
    rw [List.find?_eq_none]
    intro l hl
    simpa using h l (List.mem_reverse.1 hl)
  rw [latest?, List.reverse_append, List.find?_append, hnone]
  rfl

/-- The only look at a target among the last ones tells how it was seen. -/
theorem latest?_append_of_mem (hn : (looks.map Look.target).Nodup) (hl : l ∈ looks) :
    latest? (seen ++ looks) l.target = l.readiness? := by
  have hfind : (looks.reverse.find? fun l' => l'.target = l.target) = some l := by
    cases h : looks.reverse.find? fun l' => l'.target = l.target with
    | none =>
      have hno := List.find?_eq_none.1 h l (List.mem_reverse.2 hl)
      simp at hno
    | some l' =>
      have hmem := List.mem_reverse.1 (List.mem_of_find?_eq_some h)
      have htarget : l'.target = l.target := by simpa using List.find?_some h
      rw [List.inj_on_of_nodup_map hn hmem hl htarget]
  rw [latest?, List.reverse_append, List.find?_append, hfind]
  rfl

theorem map_snd_targets (objects : List Resource) :
    (targets objects).map (·.2) = identifiers objects := by
  simp [targets, identifiers, List.map_filterMap, Option.map_map, Function.comp_def]

theorem targets_nodup (h : (identifiers objects).Nodup) : ((targets objects).map (·.2)).Nodup := by
  rwa [map_snd_targets]

theorem due_sublist (objects : List Resource) (looks : List Look) :
    (due objects looks).Sublist (targets objects) := List.filter_sublist

theorem due_nil (objects : List Resource) : due objects [] = targets objects := by
  apply List.filter_eq_self.2
  intro t _
  rw [latest?_nil]
  rfl

theorem not_mem_due_of_latest? (h : latest? looks t = some .ready) : t ∉ due objects looks :=
  fun hdue => of_decide_eq_true (List.mem_filter.1 hdue).2 h

theorem split_concat {α : Type} {xs before after : List α} {x y : α}
    (h : xs ++ [x] = before ++ y :: after) : (before = xs ∧ y = x ∧ after = []) ∨
      ∃ rest, xs = before ++ y :: rest ∧ after = rest ++ [x] := by
  rcases List.eq_nil_or_concat after with rfl | ⟨rest, z, rfl⟩
  · obtain ⟨hxs, hx⟩ := List.append_inj' h rfl
    exact .inl ⟨hxs.symm, (List.singleton_inj.1 hx).symm, rfl⟩
  · rw [List.concat_eq_append, ← List.cons_append, ← List.append_assoc] at h
    obtain ⟨hxs, hx⟩ := List.append_inj' h rfl
    rw [List.concat_eq_append, List.singleton_inj.1 hx]
    exact .inr ⟨rest, hxs, rfl⟩

def Tracked.target (t : Tracked) : Target := (t.kind, t.identifier)

def awaited (first : Bool) (tracked : List Tracked) : List Target :=
  (tracked.filter fun t => first || t.readiness ≠ .ready).map Tracked.target

inductive Glances (first : Bool) : List Tracked → List Look → List Tracked → Prop
  | nil : Glances first [] [] []
  | skip {t : Tracked} {tracked : List Tracked} {looks : List Look} {tracked' : List Tracked}
      (hf : first = false) (hr : t.readiness = .ready) (h : Glances first tracked looks tracked') :
      Glances first (t :: tracked) looks (t :: tracked')
  | see {t : Tracked} {l : Look} {r : Readiness} {tracked : List Tracked} {looks : List Look}
      {tracked' : List Tracked} (hd : first = true ∨ t.readiness ≠ .ready)
      (hl : l.target = t.target) (hr : l.readiness? = some r) (h : Glances first tracked looks tracked') :
      Glances first (t :: tracked) (l :: looks) ({ t with readiness := r } :: tracked')

inductive GlanceEnds (first : Bool) :
    List Tracked → List Look → Except Failure (List Tracked) → Prop
  | whole {tracked : List Tracked} {looks : List Look} {tracked' : List Tracked}
      (h : Glances first tracked looks tracked') : GlanceEnds first tracked looks (.ok tracked')
  | refused {tracked : List Tracked} {looks : List Look} {tracked' rest : List Tracked} {t : Tracked}
      {l : Look} {refusal : Refusal} (h : Glances first tracked looks tracked')
      (hd : first = true ∨ t.readiness ≠ .ready) (hl : l.target = t.target)
      (ha : l.IsRefused refusal) : GlanceEnds first (tracked ++ t :: rest) (looks ++ [l])
        (.error (.provider refusal))

namespace Glances

theorem map_look_target (h : Glances first tracked looks tracked') :
    looks.map Look.target = awaited first tracked := by
  induction h with
  | nil => rfl
  | skip hf hr _ ih => rw [ih, awaited, awaited, List.filter_cons_of_neg (by simp [hf, hr])]
  | see hd hl _ _ ih =>
    rw [List.map_cons, ih, hl, awaited, awaited, List.filter_cons_of_pos (by simpa using hd)]
    rfl

theorem map_target (h : Glances first tracked looks tracked') :
    tracked'.map Tracked.target = tracked.map Tracked.target := by
  induction h with
  | nil => rfl
  | skip _ _ _ ih => rw [List.map_cons, List.map_cons, ih]
  | see _ _ _ _ ih =>
    rw [List.map_cons, List.map_cons, ih]
    rfl

theorem exists_readiness? (h : Glances first tracked looks tracked') (hl : l ∈ looks) :
    ∃ r, l.readiness? = some r := by
  induction h with
  | nil => cases hl
  | skip _ _ _ ih => exact ih hl
  | see _ _ hr _ ih =>
    rcases List.mem_cons.1 hl with rfl | hl
    · exact ⟨_, hr⟩
    · exact ih hl

/-- Afterwards an object is as it was seen in the pass, or was ready before. -/
theorem seen_or_ready (h : Glances first tracked looks tracked') {u : Tracked} (hu : u ∈ tracked') :
    (∃ l ∈ looks, l.target = u.target ∧ l.readiness? = some u.readiness) ∨
      (u ∈ tracked ∧ first = false ∧ u.readiness = .ready) := by
  induction h with
  | nil => cases hu
  | skip hf hr _ ih =>
    rcases List.mem_cons.1 hu with rfl | hu
    · exact .inr ⟨List.mem_cons_self, hf, hr⟩
    · exact (ih hu).imp_right fun h => ⟨List.mem_cons_of_mem _ h.1, h.2⟩
  | see _ hl hr _ ih =>
    rcases List.mem_cons.1 hu with rfl | hu
    · exact .inl ⟨_, List.mem_cons_self, hl, hr⟩
    · rcases ih hu with ⟨l, hlm, hl⟩ | ⟨hm, h⟩
      · exact .inl ⟨l, List.mem_cons_of_mem _ hlm, hl⟩
      · exact .inr ⟨List.mem_cons_of_mem _ hm, h⟩

/-- Those that have failed were seen so in the pass. -/
theorem idsWith_failed (h : Glances first tracked looks tracked') :
    Tracked.idsWith .failed tracked' =
      (looks.filter fun l => l.readiness? = some .failed).map Look.id := by
  induction h with
  | nil => rfl
  | @skip t _ _ _ _ hr _ ih =>
    rw [← ih, Tracked.idsWith, Tracked.idsWith, List.filter_cons_of_neg (by simp [hr])]
  | @see t l r _ _ _ _ hl hr _ ih =>
    have hid : l.id = t.identifier := congrArg Prod.snd hl
    rw [Tracked.idsWith] at ih ⊢
    rw [List.filter_cons, List.filter_cons]
    by_cases hfailed : r = .failed
    · simp [hfailed, hr, hid, ih]
    · simp [hfailed, hr, ih]

end Glances

structure Glanced (first : Bool) (tracked : List Tracked) (looks : List Look) : Prop where
  target_prefix : looks.map Look.target <+: awaited first tracked
  whole : (∀ l ∈ looks, l.readiness? ≠ none) → looks.map Look.target = awaited first tracked
  refused_last : ∀ l ∈ looks.dropLast, l.readiness? ≠ none

namespace GlanceEnds

variable {out : Except Failure (List Tracked)}

theorem cons_skip {t : Tracked} (hf : first = false) (hr : t.readiness = .ready)
    (h : GlanceEnds first tracked looks out) :
    GlanceEnds first (t :: tracked) looks (out.map (t :: ·)) := by
  cases h with
  | whole h => exact .whole (h.skip hf hr)
  | refused h hd hl ha => exact .refused (h.skip hf hr) hd hl ha

theorem cons_see {t : Tracked} {r : Readiness} (hd : first = true ∨ t.readiness ≠ .ready)
    (hl : l.target = t.target) (hr : l.readiness? = some r)
    (h : GlanceEnds first tracked looks out) : GlanceEnds first (t :: tracked) (l :: looks)
      (out.map ({ t with readiness := r } :: ·)) := by
  cases h with
  | whole h => exact .whole (h.see hd hl hr)
  | refused h hd' hl' ha => exact .refused (h.see hd hl hr) hd' hl' ha

theorem glanced (h : GlanceEnds first tracked looks out) : Glanced first tracked looks := by
  cases h with
  | whole h =>
    have hseen (l : Look) (hl : l ∈ looks) : l.readiness? ≠ none := by
      obtain ⟨r, hr⟩ := h.exists_readiness? hl
      rw [hr]
      nofun
    exact ⟨h.map_look_target ▸ List.prefix_rfl, fun _ => h.map_look_target,
      fun l hl => hseen l (List.dropLast_subset _ hl)⟩
  | @refused tracked looks tracked' rest t l refusal h hd hl ha =>
    have hawaited : awaited first (tracked ++ t :: rest) =
        awaited first tracked ++ t.target :: awaited first rest := by
      rw [awaited, List.filter_append, List.filter_cons_of_pos (by simpa using hd), List.map_append]
      rfl
    refine ⟨⟨awaited first rest, ?_⟩, ?_, ?_⟩
    · rw [hawaited, List.map_append, h.map_look_target, hl.symm]
      simp
    · intro hseen
      exact absurd ha.readiness?_eq (hseen l (by simp))
    · intro l' hl'
      rw [List.dropLast_concat] at hl'
      obtain ⟨r, hr⟩ := h.exists_readiness? hl'
      rw [hr]
      nofun

end GlanceEnds

inductive Opened (start : List Tracked) : List (List Look) → List Tracked → Prop
  | nil : Opened start [] start
  | pass {opens : List (List Look)} {tracked tracked' : List Tracked} {looks : List Look}
      {ids : List Identifier} (h : Opened start opens tracked)
      (hg : Glances opens.isEmpty tracked looks tracked')
      (hp : Tracked.progressing tracked' = .ok ids) (hne : ids ≠ []) :
      Opened start (opens ++ [looks]) tracked'

/-- What comes of the last pass. -/
inductive Ends (steps : Nat) (opens : List (List Look)) :
    List Tracked → List Look → Except Failure Unit → Prop
  | refused {tracked : List Tracked} {last : List Look} {failure : Failure}
      (h : GlanceEnds opens.isEmpty tracked last (.error failure)) :
      Ends steps opens tracked last (.error failure)
  | failed {tracked tracked' : List Tracked} {last : List Look} {failure : Failure}
      (h : Glances opens.isEmpty tracked last tracked')
      (hp : Tracked.progressing tracked' = .error failure) :
      Ends steps opens tracked last (.error failure)
  | ready {tracked tracked' : List Tracked} {last : List Look}
      (h : Glances opens.isEmpty tracked last tracked')
      (hp : Tracked.progressing tracked' = .ok []) : Ends steps opens tracked last (.ok ())
  | timeout {tracked tracked' : List Tracked} {last : List Look} {ids : List Identifier}
      (h : Glances opens.isEmpty tracked last tracked')
      (hp : Tracked.progressing tracked' = .ok ids) (hne : ids ≠ []) (hlen : opens.length = steps) :
      Ends steps opens tracked last (.error (.waitTimeout ids))

theorem progressing_eq_ok_iff {ids : List Identifier} : Tracked.progressing tracked = .ok ids ↔
    (∀ t ∈ tracked, t.readiness ≠ .failed) ∧ Tracked.idsWith .progressing tracked = ids := by
  have hfailed : Tracked.idsWith .failed tracked = [] ↔ ∀ t ∈ tracked, t.readiness ≠ .failed := by
    simp [Tracked.idsWith]
  rw [Tracked.progressing, ← hfailed]
  cases Tracked.idsWith .failed tracked with
  | nil => simp
  | cons id ids => simp

theorem progressing_eq_error_iff {failure : Failure} :
    Tracked.progressing tracked = .error failure ↔ Tracked.idsWith .failed tracked ≠ [] ∧
      failure = .resourcesFailed (Tracked.idsWith .failed tracked) := by
  rw [Tracked.progressing]
  cases Tracked.idsWith .failed tracked with
  | nil => simp
  | cons id ids => simp [eq_comm]

structure Stands (objects : List Resource) (opens : List (List Look)) (tracked : List Tracked) :
    Prop where
  map_target : tracked.map Tracked.target = targets objects
  /-- Nothing is known before the first pass. -/
  latest : opens ≠ [] → ∀ t ∈ tracked, latest? opens.flatten t.target = some t.readiness
  calm : ∀ l ∈ opens.flatten, l.readiness? ≠ none ∧ l.readiness? ≠ some .failed
  mem_targets : ∀ l ∈ opens.flatten, l.target ∈ targets objects
  stays_ready : ∀ l ∈ opens.flatten, l.readiness? = some .ready →
    latest? opens.flatten l.target = some .ready
  ready_once : opens.flatten.Pairwise fun a b => a.readiness? = some .ready → b.id ≠ a.id
  looks_at_due : ∀ before pass after, opens = before ++ pass :: after →
    pass.map Look.target = due objects before.flatten
  goes_on : ∀ before after, opens = before ++ after → before ≠ [] →
    ∃ t ∈ targets objects, latest? before.flatten t = some .progressing

theorem exists_of_idsWith_ne_nil {r : Readiness} (h : Tracked.idsWith r tracked ≠ []) :
    ∃ u ∈ tracked, u.readiness = r := by
  obtain ⟨id, hid⟩ := List.exists_mem_of_ne_nil _ h
  obtain ⟨u, hu, -⟩ := List.mem_map.1 hid
  obtain ⟨hu, hr⟩ := List.mem_filter.1 hu
  exact ⟨u, hu, of_decide_eq_true hr⟩

/-- If nothing has failed after a pass, nothing was seen failed in it. -/
theorem Glances.not_failed (h : Glances first tracked looks tracked')
    (hfree : ∀ u ∈ tracked', u.readiness ≠ .failed) : ∀ l ∈ looks, l.readiness? ≠ some .failed := by
  intro l hl hfailed
  have hmem : l.id ∈ Tracked.idsWith .failed tracked' := by
    rw [h.idsWith_failed]
    exact List.mem_map_of_mem (List.mem_filter.2 ⟨hl, decide_eq_true hfailed⟩)
  obtain ⟨u, hu, hr⟩ := exists_of_idsWith_ne_nil (List.ne_nil_of_mem hmem)
  exact hfree u hu hr

namespace Stands

/-- The next pass looks at what was not seen ready. -/
theorem awaited_eq (h : Stands objects opens tracked) :
    awaited opens.isEmpty tracked = due objects opens.flatten := by
  rw [awaited, due, ← h.map_target, List.filter_map]
  congr 1
  apply List.filter_congr
  intro t ht
  cases opens with
  | nil => rfl
  | cons pass opens =>
    rw [Function.comp_apply, h.latest (List.cons_ne_nil _ _) t ht]
    simp

variable (hids : ((targets objects).map (·.2)).Nodup)
include hids

theorem target_nodup (hp : looks.map Look.target <+: due objects seen) :
    (looks.map Look.target).Nodup :=
  (hids.of_map _).sublist (hp.sublist.trans (due_sublist _ _))

theorem latest_after (h : Stands objects opens tracked)
    (hg : Glances opens.isEmpty tracked looks tracked') {u : Tracked} (hu : u ∈ tracked') :
    latest? (opens.flatten ++ looks) u.target = some u.readiness := by
  have hdue : looks.map Look.target = due objects opens.flatten :=
    hg.map_look_target.trans h.awaited_eq
  rcases hg.seen_or_ready hu with ⟨l, hl, htarget, hr⟩ | ⟨hm, hf, hr⟩
  · have hstarts : looks.map Look.target <+: due objects opens.flatten := hdue ▸ List.prefix_rfl
    rw [← htarget, latest?_append_of_mem (target_nodup hids hstarts) hl, hr]
  · have hlatest := h.latest (by rintro rfl; cases hf) u hm
    rw [latest?_append_of_ne, hlatest]
    intro l hl htarget
    have hl := List.mem_map_of_mem (f := Look.target) hl
    rw [hdue, htarget] at hl
    exact not_mem_due_of_latest? (hlatest.trans (congrArg some hr)) hl

/-- What was seen ready is not looked at in the next pass. -/
theorem ready_once_append (h : Stands objects opens tracked)
    (hp : looks.map Look.target <+: due objects opens.flatten) :
    (opens.flatten ++ looks).Pairwise fun a b => a.readiness? = some .ready → b.id ≠ a.id := by
  have htargets (l : Look) (hl : l ∈ looks) : l.target ∈ due objects opens.flatten :=
    hp.subset (List.mem_map_of_mem hl)
  have hinj := List.inj_on_of_nodup_map hids
  rw [List.pairwise_append]
  refine ⟨h.ready_once, ?_, ?_⟩
  · have hlooks : (looks.map Look.id).Nodup := by
      have hsub := (hp.sublist.trans (due_sublist _ _)).map (·.2)
      rw [List.map_map] at hsub
      exact hids.sublist hsub
    exact (List.pairwise_map.1 hlooks).imp fun hne _ => hne.symm
  · intro a ha b hb hready heq
    have htarget := hinj ((due_sublist _ _).subset (htargets b hb)) (h.mem_targets a ha) heq
    exact not_mem_due_of_latest? (h.stays_ready a ha hready) (htarget ▸ htargets b hb)

theorem pass {ids : List Identifier} (h : Stands objects opens tracked)
    (hg : Glances opens.isEmpty tracked looks tracked')
    (hp : Tracked.progressing tracked' = .ok ids) (hne : ids ≠ []) :
    Stands objects (opens ++ [looks]) tracked' := by
  have hdue : looks.map Look.target = due objects opens.flatten :=
    hg.map_look_target.trans h.awaited_eq
  have hstarts : looks.map Look.target <+: due objects opens.flatten := hdue ▸ List.prefix_rfl
  have hmem (l : Look) (hl : l ∈ looks) : l.target ∈ due objects opens.flatten :=
    hstarts.subset (List.mem_map_of_mem hl)
  obtain ⟨hfree, rfl⟩ := progressing_eq_ok_iff.1 hp
  constructor
  case map_target => exact hg.map_target.trans h.map_target
  case latest =>
    intro _ u hu
    rw [List.flatten_concat]
    exact h.latest_after hids hg hu
  case calm =>
    intro l hl
    rw [List.flatten_concat] at hl
    rcases List.mem_append.1 hl with hl | hl
    · exact h.calm l hl
    · obtain ⟨r, hr⟩ := hg.exists_readiness? hl
      exact ⟨by rw [hr]; nofun, hg.not_failed hfree l hl⟩
  case mem_targets =>
    intro l hl
    rw [List.flatten_concat] at hl
    rcases List.mem_append.1 hl with hl | hl
    · exact h.mem_targets l hl
    · exact (due_sublist _ _).subset (hmem l hl)
  case stays_ready =>
    intro l hl hready
    rw [List.flatten_concat] at hl ⊢
    rcases List.mem_append.1 hl with hl | hl
    · have hlatest := h.stays_ready l hl hready
      rw [latest?_append_of_ne, hlatest]
      exact fun l' hl' htarget => not_mem_due_of_latest? hlatest (htarget ▸ hmem l' hl')
    · rw [latest?_append_of_mem (target_nodup hids hstarts) hl, hready]
  case ready_once =>
    rw [List.flatten_concat]
    exact h.ready_once_append hids hstarts
  case looks_at_due =>
    intro before pass after heq
    rcases split_concat heq with ⟨rfl, rfl, -⟩ | ⟨rest, heq, -⟩
    · exact hdue
    · exact h.looks_at_due before pass rest heq
  case goes_on =>
    intro before after heq hbefore
    rcases List.eq_nil_or_concat after with rfl | ⟨rest, x, rfl⟩
    · obtain ⟨u, hu, hr⟩ := exists_of_idsWith_ne_nil hne
      refine ⟨u.target, ?_, ?_⟩
      · rw [← h.map_target, ← hg.map_target]
        exact List.mem_map_of_mem hu
      · rw [← List.append_nil before, ← heq, List.flatten_concat, h.latest_after hids hg hu, hr]
    · rw [List.concat_eq_append, ← List.append_assoc] at heq
      exact h.goes_on before rest (List.append_inj' heq rfl).1 hbefore

end Stands

theorem Opened.stands (hids : ((targets objects).map (·.2)).Nodup)
    (h : Opened (objects.filterMap Tracked.ofResource?) opens tracked) :
    Stands objects opens tracked := by
  induction h with
  | nil =>
    refine ⟨?_, by simp, by simp, by simp, by simp, .nil, by simp, ?_⟩
    · simp [targets, Tracked.ofResource?, List.map_filterMap, Option.map_map, Function.comp_def,
        Tracked.target]
    · intro before after heq hne
      exact absurd (List.append_eq_nil_iff.1 heq.symm).1 hne
  | pass _ hg hp hne ih => exact ih.pass hids hg hp hne

namespace Ends

theorem glanced (h : Ends steps opens tracked last out) : Glanced opens.isEmpty tracked last := by
  cases h with
  | refused h => exact h.glanced
  | failed h _ | ready h _ | timeout h _ _ _ => exact (GlanceEnds.whole h).glanced

theorem eq_of_isRefused {refusal : Refusal} (h : Ends steps opens tracked last out) (hl : l ∈ last)
    (ha : l.IsRefused refusal) : out = .error (.provider refusal) := by
  have hwhole {tracked'} (h : Glances opens.isEmpty tracked last tracked') : False := by
    obtain ⟨r, hr⟩ := h.exists_readiness? hl
    cases hr.symm.trans ha.readiness?_eq
  cases h with
  | refused h =>
    cases h with
    | refused h _ _ ha' =>
      rcases List.mem_append.1 hl with hl | hl
      · obtain ⟨r, hr⟩ := h.exists_readiness? hl
        cases hr.symm.trans ha.readiness?_eq
      · cases List.mem_singleton.1 hl
        cases ha.1.symm.trans ha'.1
        rfl
  | failed h _ | ready h _ | timeout h _ _ _ => exact (hwhole h).elim

/-- What has failed is told, if the provider did not fail. -/
theorem eq_failed (h : Ends steps opens tracked last out)
    (hseen : ∀ l ∈ last, l.readiness? ≠ none) (hfailed : ∃ l ∈ last, l.readiness? = some .failed) :
    out = .error (.resourcesFailed
      ((last.filter fun l => l.readiness? = some .failed).map Look.id)) := by
  obtain ⟨l, hl, hfailed⟩ := hfailed
  have hok {tracked' : List Tracked} {ids : List Identifier}
      (h : Glances opens.isEmpty tracked last tracked')
      (hp : Tracked.progressing tracked' = .ok ids) : False :=
    h.not_failed (progressing_eq_ok_iff.1 hp).1 l hl hfailed
  cases h with
  | refused h =>
    cases h with
    | @refused _ looks _ _ t l refusal _ _ _ ha =>
      exact absurd ha.readiness?_eq (hseen l (by simp))
  | failed h hp =>
    obtain ⟨-, hout⟩ := progressing_eq_error_iff.1 hp
    rw [hout, h.idsWith_failed]
  | ready h hp | timeout h hp _ _ => exact (hok h hp).elim

/-- If nothing has failed and the wait does not succeed, time is up. -/
theorem exists_timeout (h : Ends steps opens tracked last out)
    (hseen : ∀ l ∈ last, l.readiness? ≠ none ∧ l.readiness? ≠ some .failed) (hne : out ≠ .ok ()) :
    ∃ ids, out = .error (.waitTimeout ids) := by
  cases h with
  | refused h =>
    cases h with
    | @refused _ looks _ _ t l refusal _ _ _ ha =>
      exact absurd ha.readiness?_eq (hseen l (by simp)).1
  | failed h hp =>
    have hnot := (progressing_eq_error_iff.1 hp).1
    rw [h.idsWith_failed] at hnot
    obtain ⟨id, hid⟩ := List.exists_mem_of_ne_nil _ hnot
    obtain ⟨l, hl, -⟩ := List.mem_map.1 hid
    obtain ⟨hl, hfailed⟩ := List.mem_filter.1 hl
    exact absurd (of_decide_eq_true hfailed) (hseen l hl).2
  | ready h hp => exact absurd rfl hne
  | timeout h hp hne' hlen => exact ⟨_, rfl⟩

theorem looks_at_due (h : Ends steps opens tracked last out) (hs : Stands objects opens tracked)
    (before : List (List Look)) (pass : List Look) (after : List (List Look))
    (heq : opens ++ [last] = before ++ pass :: after) :
    pass.map Look.target <+: due objects before.flatten ∧
      ((∀ l ∈ pass, l.readiness? ≠ none) → pass.map Look.target = due objects before.flatten) := by
  rcases split_concat heq with ⟨rfl, rfl, -⟩ | ⟨rest, heq, -⟩
  · have hg := h.glanced
    rw [← hs.awaited_eq]
    exact ⟨hg.target_prefix, hg.whole⟩
  · have hlooks := hs.looks_at_due before pass rest heq
    exact ⟨hlooks ▸ List.prefix_rfl, fun _ => hlooks⟩

theorem refused_last (h : Ends steps opens tracked last out) (hs : Stands objects opens tracked)
    (hl : l ∈ (opens.flatten ++ last).dropLast) : l.readiness? ≠ none := by
  rcases List.eq_nil_or_concat last with rfl | ⟨init, x, rfl⟩
  · rw [List.append_nil] at hl
    exact (hs.calm l (List.dropLast_subset _ hl)).1
  · rw [List.concat_eq_append, ← List.append_assoc, List.dropLast_concat] at hl
    rcases List.mem_append.1 hl with hl | hl
    · exact (hs.calm l hl).1
    · exact h.glanced.refused_last l (by rwa [List.concat_eq_append, List.dropLast_concat])

variable (hids : ((targets objects).map (·.2)).Nodup)
include hids

/-- A wait succeeds if everything was seen ready at the last look. -/
theorem eq_ok_iff (h : Ends steps opens tracked last out) (hs : Stands objects opens tracked) :
    out = .ok () ↔ ∀ t ∈ targets objects, latest? (opens.flatten ++ last) t = some .ready := by
  -- An object that is seen otherwise in the end is in the way.
  have hother {tracked' : List Tracked} {u : Tracked}
      (hg : Glances opens.isEmpty tracked last tracked') (hu : u ∈ tracked')
      (hr : u.readiness ≠ .ready) :
      ¬ ∀ t ∈ targets objects, latest? (opens.flatten ++ last) t = some .ready := by
    intro hall
    have hmem : u.target ∈ targets objects := by
      rw [← hs.map_target, ← hg.map_target]
      exact List.mem_map_of_mem hu
    exact hr (Option.some.inj ((hs.latest_after hids hg hu).symm.trans (hall _ hmem)))
  cases h with
  | refused h =>
    refine iff_of_false nofun fun hall => ?_
    have hstarts := h.glanced.target_prefix
    rw [hs.awaited_eq] at hstarts
    cases h with
    | @refused _ looks _ _ t l refusal _ _ _ ha =>
      have hmem : l ∈ looks ++ [l] := by simp
      have htarget := (due_sublist _ _).subset (hstarts.subset (List.mem_map_of_mem hmem))
      have hlatest : latest? (opens.flatten ++ (looks ++ [l])) l.target = l.readiness? :=
        latest?_append_of_mem (Stands.target_nodup hids hstarts) hmem
      rw [hall _ htarget, ha.readiness?_eq] at hlatest
      cases hlatest
  | failed h hp =>
    obtain ⟨u, hu, hr⟩ := exists_of_idsWith_ne_nil (progressing_eq_error_iff.1 hp).1
    exact iff_of_false nofun (hother h hu (by rw [hr]; nofun))
  | timeout h hp hne _ =>
    rw [← (progressing_eq_ok_iff.1 hp).2] at hne
    obtain ⟨u, hu, hr⟩ := exists_of_idsWith_ne_nil hne
    exact iff_of_false nofun (hother h hu (by rw [hr]; nofun))
  | @ready tracked' _ h hp =>
    refine iff_of_true rfl fun t ht => ?_
    rw [← hs.map_target, ← h.map_target] at ht
    obtain ⟨u, hu, rfl⟩ := List.mem_map.1 ht
    obtain ⟨hfree, hnone⟩ := progressing_eq_ok_iff.1 hp
    have hready : u.readiness = .ready := by
      cases hr : u.readiness with
      | ready => rfl
      | failed => exact absurd hr (hfree u hu)
      | progressing =>
        have hmem : u.identifier ∈ Tracked.idsWith .progressing tracked' :=
          List.mem_map_of_mem (List.mem_filter.2 ⟨hu, decide_eq_true hr⟩)
        rw [hnone] at hmem
        cases hmem
    rw [hs.latest_after hids h hu, hready]

/-- What is still progressing after the last pass is told. -/
theorem eq_timeout {ids : List Identifier} (h : Ends steps opens tracked last out)
    (hs : Stands objects opens tracked) (hout : out = .error (.waitTimeout ids)) :
    opens.length = steps ∧ ids = ((targets objects).filter fun t =>
      latest? (opens.flatten ++ last) t = some .progressing).map (·.2) := by
  cases h with
  | refused h =>
    cases h
    cases hout
  | failed h hp =>
    rw [(progressing_eq_error_iff.1 hp).2] at hout
    cases hout
  | ready h hp => cases hout
  | timeout h hp _ hlen =>
    cases hout
    refine ⟨hlen, ?_⟩
    rw [← (progressing_eq_ok_iff.1 hp).2, ← hs.map_target, ← h.map_target, List.filter_map,
      List.map_map, Tracked.idsWith]
    refine congrArg (List.map _) (List.filter_congr fun u hu => ?_)
    rw [Function.comp_apply, hs.latest_after hids h hu]
    simp

/-- Everything is seen ready after the last pass, or never. -/
theorem ok_iff (h : Ends steps opens tracked last out) (hs : Stands objects opens tracked) :
    out = .ok () ↔ ∃ p, 0 < p ∧ p ≤ (opens ++ [last]).length ∧
      ∀ t ∈ targets objects, latest? ((opens ++ [last]).take p).flatten t = some .ready := by
  rw [h.eq_ok_iff hids hs, ← List.flatten_concat]
  constructor
  · intro hall
    exact ⟨(opens ++ [last]).length, by simp, Nat.le_refl _, by rwa [List.take_length]⟩
  · rintro ⟨p, hpos, hle, hall⟩
    rw [List.length_append, List.length_singleton] at hle
    by_cases hp : p ≤ opens.length
    · rw [List.take_append_of_le_length hp] at hall
      have hne : opens.take p ≠ [] := by
        rw [← List.length_pos_iff, List.length_take]
        omega
      obtain ⟨t, ht, hprogressing⟩ := hs.goes_on _ _ (List.take_append_drop p opens).symm hne
      cases hprogressing.symm.trans (hall t ht)
    · have hlen : (opens ++ [last]).length ≤ p := by
        rw [List.length_append, List.length_singleton]
        omega
      rwa [List.take_of_length_le hlen] at hall

/-- Whatever the last pass comes to, the wait is accounted for. -/
theorem awaits (h : Ends steps opens tracked last out) (hs : Stands objects opens tracked)
    (hlen : opens.length ≤ steps) : Awaits steps objects (opens ++ [last]) out := by
  constructor
  case few => simpa using hlen
  case looks_at_due => exact h.looks_at_due hs
  case first =>
    obtain ⟨pass, after, heq⟩ := List.exists_cons_of_ne_nil (List.concat_ne_nil last opens)
    refine ⟨pass, after, heq, fun hseen => ?_⟩
    rw [(h.looks_at_due hs [] pass after heq).2 hseen, List.flatten_nil, due_nil]
  case ready_once =>
    rw [List.flatten_concat]
    exact hs.ready_once_append hids (hs.awaited_eq ▸ h.glanced.target_prefix)
  case goes_on =>
    intro before pass after heq hbefore
    rcases split_concat heq with ⟨rfl, -, -⟩ | ⟨rest, heq, -⟩
    · exact hs.goes_on before [] (List.append_nil _).symm hbefore
    · exact hs.goes_on before (pass :: rest) heq hbefore
  case refused_last =>
    intro l hl
    rw [List.flatten_concat] at hl
    exact h.refused_last hs hl
  case refused =>
    intro l hl refusal ha
    rw [List.flatten_concat] at hl
    rcases List.mem_append.1 hl with hl | hl
    · exact absurd ha.readiness?_eq (hs.calm l hl).1
    · exact h.eq_of_isRefused hl ha
  case failed_last =>
    intro pass hpass l hl
    rw [List.dropLast_concat] at hpass
    exact (hs.calm l (List.mem_flatten.2 ⟨pass, hpass, hl⟩)).2
  case failed =>
    rintro hseen ⟨l, hl, hfailed⟩
    rw [List.flatten_concat] at hseen hl
    rcases List.mem_append.1 hl with hl | hl
    · exact absurd hfailed (hs.calm l hl).2
    · exact ⟨opens, last, rfl,
        h.eq_failed (fun l hl => hseen l (List.mem_append_right _ hl)) ⟨l, hl, hfailed⟩⟩
  case ok_iff => exact h.ok_iff hids hs
  case timeout =>
    intro hseen hne
    rw [List.flatten_concat] at hseen
    exact h.exists_timeout (fun l hl => hseen l (List.mem_append_right _ hl)) hne
  case timeout_last =>
    intro ids hout
    rw [List.flatten_concat]
    obtain ⟨hlen, hids⟩ := h.eq_timeout hids hs hout
    exact ⟨by rw [List.length_append, hlen]; rfl, hids⟩

end Ends

theorem pollOne_meets_showing (t : Tracked) (moments : List Moment) :
    (pollOne t).Meets showing (fun out moments' => ∃ l : Look,
      moments' = moments ++ [.saw l] ∧ l.target = t.target ∧
      ((∃ r, l.readiness? = some r ∧ out = .ok { t with readiness := r }) ∨
        ∃ refusal, l.IsRefused refusal ∧ out = .error (.provider refusal))) moments := by
  apply showing_checkpoint
  apply showing_get
  intro answer
  cases answer with
  | ok r => exact ⟨_, rfl, rfl, .inl ⟨_, rfl, rfl⟩⟩
  | error refusal =>
    cases refusal with
    | notFound => exact ⟨_, rfl, rfl, .inl ⟨_, rfl, rfl⟩⟩
    | _ => exact ⟨_, rfl, rfl, .inr ⟨_, ⟨rfl, nofun⟩, rfl⟩⟩

theorem pollAll_meets_showing (first : Bool) (tracked : List Tracked) (moments : List Moment) :
    (pollAll first tracked).Meets showing (fun out moments' => ∃ looks,
      moments' = moments ++ looks.map .saw ∧ GlanceEnds first tracked looks out) moments := by
  induction tracked generalizing moments with
  | nil => exact ⟨[], (List.append_nil _).symm, .whole .nil⟩
  | cons t tracked ih =>
    rw [pollAll]
    split
    next hskip =>
      obtain ⟨hf, hr⟩ : first = false ∧ t.readiness = .ready := by simpa using hskip
      apply (ih moments).bind
      · rintro rest _ ⟨looks, rfl, h⟩
        exact ⟨looks, rfl, h.cons_skip hf hr⟩
      · rintro failure _ ⟨looks, rfl, h⟩
        exact ⟨looks, rfl, h.cons_skip hf hr⟩
    next hskip =>
      have hd : first = true ∨ t.readiness ≠ .ready := by
        cases first <;> simp at hskip ⊢
        exact hskip
      apply (pollOne_meets_showing t moments).bind
      · rintro t' _ ⟨l, rfl, hl, ⟨r, hr, heq⟩ | ⟨refusal, -, heq⟩⟩ <;> cases heq
        apply (ih _).bind
        · rintro rest _ ⟨looks, rfl, h⟩
          exact ⟨l :: looks, List.append_assoc _ _ _, h.cons_see hd hl hr⟩
        · rintro failure _ ⟨looks, rfl, h⟩
          exact ⟨l :: looks, List.append_assoc _ _ _, h.cons_see hd hl hr⟩
      · rintro failure _ ⟨l, rfl, hl, ⟨r, hr, heq⟩ | ⟨refusal, ha, heq⟩⟩ <;> cases heq
        exact ⟨[l], rfl, @GlanceEnds.refused _ [] [] [] _ _ _ _ .nil hd hl ha⟩

theorem pause_meets_showing (b : Backoff) (current : Duration) (moments : List Moment) :
    (pause b current).Meets showing (fun out moments' => (∃ next, out = .ok next) ∧
      ∃ milliseconds, moments' = moments ++ [.slept milliseconds]) moments := by
  have hsleep (waiting next : Duration) : (do
      if ← request (.sleep waiting) then fail .canceled
      return next : Program Duration).Meets showing (fun out moments' => (∃ next, out = .ok next) ∧
        ∃ milliseconds, moments' = moments ++ [.slept milliseconds]) moments := by
    rintro _ rfl
    refine ⟨trivial, ?_⟩
    rintro canceled _ ⟨rfl, rfl⟩
    exact ⟨⟨next, rfl⟩, _, rfl⟩
  rw [pause]
  split
  · rintro _ rfl
    refine ⟨trivial, ?_⟩
    rintro draw _ rfl
    exact hsleep _ _
  · exact hsleep _ _

def Waits (steps : Nat) (start : List Tracked) (opens : List (List Look)) (w : Wait)
    (out : Except Failure Unit) : Prop :=
  ∃ tracked, Opened start (opens ++ w.paused.map (·.1)) tracked ∧
    Ends steps (opens ++ w.paused.map (·.1)) tracked w.last out ∧
    (opens ++ w.paused.map (·.1)).length ≤ steps

namespace Waits

variable {start : List Tracked} {w : Wait}

theorem of_ends (h : Opened start opens tracked) (hends : Ends steps opens tracked last out)
    (hlen : opens.length ≤ steps) : Waits steps start opens ⟨[], last⟩ out := by
  rw [Waits, List.map_nil, List.append_nil]
  exact ⟨tracked, h, hends, hlen⟩

theorem pause (h : Waits steps start (opens ++ [looks]) w out) (milliseconds : Nat) :
    Waits steps start opens ⟨(looks, milliseconds) :: w.paused, w.last⟩ out := by
  rw [Waits, List.map_cons, List.append_cons]
  exact h

theorem awaits {w : Wait} (hids : ((targets objects).map (·.2)).Nodup)
    (h : Waits steps (objects.filterMap Tracked.ofResource?) [] w out) :
    Awaits steps objects w.passes out := by
  obtain ⟨tracked, hopened, hends, hlen⟩ := h
  exact hends.awaits hids (hopened.stands hids) hlen

end Waits

/-- A pass ends the wait, unless something is progressing after it. -/
theorem pass_meets_showing {start : List Tracked} {rest : List Tracked → List Identifier → Program Unit}
    {moments : List Moment} (h : Opened start opens tracked) (hle : opens.length ≤ steps)
    (hready : ∀ tracked', rest tracked' [] = return)
    (hrest : ∀ looks tracked' ids, Glances opens.isEmpty tracked looks tracked' →
      Tracked.progressing tracked' = .ok ids → ids ≠ [] →
      (rest tracked' ids).Meets showing (fun out moments' => ∃ w : Wait,
        moments' = moments ++ w.moments ∧ Waits steps start opens w out)
        (moments ++ looks.map .saw)) :
    (do
      let tracked' ← pollAll opens.isEmpty tracked
      let ids ← ofExcept (Tracked.progressing tracked')
      rest tracked' ids : Program Unit).Meets showing (fun out moments' => ∃ w : Wait,
        moments' = moments ++ w.moments ∧ Waits steps start opens w out) moments := by
  apply (pollAll_meets_showing opens.isEmpty tracked moments).bind
  · rintro tracked' _ ⟨looks, rfl, hg⟩
    cases hg with
    | whole hg =>
      cases hp : Tracked.progressing tracked' with
      | error failure => exact ⟨⟨[], looks⟩, rfl, .of_ends h (.failed hg hp) hle⟩
      | ok ids =>
        change (rest tracked' ids).Meets ..
        by_cases hids : ids = []
        · subst hids
          rw [hready]
          exact ⟨⟨[], looks⟩, rfl, .of_ends h (.ready hg hp) hle⟩
        · exact hrest looks tracked' ids hg hp hids
  · rintro failure _ ⟨looks, rfl, hg⟩
    exact ⟨⟨[], looks⟩, rfl, .of_ends h (.refused hg) hle⟩

theorem pollUntilReady_meets_showing {start : List Tracked} (b : Backoff) (current : Duration)
    (moments : List Moment) (h : Opened start opens tracked) (hlen : opens.length + pauses = steps) :
    (pollUntilReady b pauses current opens.isEmpty tracked).Meets showing (fun out moments' =>
      ∃ w : Wait, moments' = moments ++ w.moments ∧ Waits steps start opens w out) moments := by
  induction pauses generalizing current moments opens tracked with
  | zero =>
    have hle : opens.length ≤ steps := hlen.le
    rw [pollUntilReady]
    apply pass_meets_showing h hle
    · intro _
      rfl
    · intro looks tracked' ids hg hp hne
      obtain ⟨id, ids, rfl⟩ := List.exists_cons_of_ne_nil hne
      exact ⟨⟨[], looks⟩, rfl, .of_ends h (.timeout hg hp hne hlen) hle⟩
  | succ pauses ih =>
    have hle : opens.length ≤ steps := by omega
    rw [pollUntilReady]
    apply pass_meets_showing h hle
    · intro _
      rfl
    · intro looks tracked' ids hg hp hne
      obtain ⟨id, ids, rfl⟩ := List.exists_cons_of_ne_nil hne
      have hnext := h.pass hg hp hne
      have hlen' : (opens ++ [looks]).length + pauses = steps := by
        rw [List.length_append, List.length_singleton]
        omega
      have hfirst : (opens ++ [looks]).isEmpty = false := by simp
      apply (pause_meets_showing b current _).bind
      · rintro next _ ⟨-, milliseconds, rfl⟩
        rw [← hfirst]
        apply (ih next _ hnext hlen').mono
        rintro out _ ⟨w, rfl, hw⟩
        refine ⟨_, ?_, hw.pause milliseconds⟩
        simp only [Wait.moments, List.flatMap_cons, List.append_assoc]
      · rintro failure _ ⟨⟨next, heq⟩, -⟩
        cases heq

theorem exists_waits {k : Conditions σ} {s : Surroundings σ} {b : Backoff} (hs : s.Uncanceled k)
    (hl : s.leads = none) (hb : b.validate = .ok ()) (objects : List Resource) :
    ∃ (w : Wait) (out : Except Failure Unit) (s' : Surroundings σ),
      (waitReady b objects).run (Surroundings.handler k) s = (some out, s') ∧
      s.Saw k w.moments s' ∧ Waits b.steps (objects.filterMap Tracked.ofResource?) [] w out := by
  have hmeets : (waitReady b objects).Meets showing (fun out moments => ∃ w : Wait,
      moments = w.moments ∧ Waits b.steps (objects.filterMap Tracked.ofResource?) [] w out) [] := by
    rw [waitReady, hb]
    exact pollUntilReady_meets_showing b b.initial [] .nil (Nat.zero_add _)
  obtain ⟨out, s', _, hrun, hsaw, w, rfl, hw⟩ := Surroundings.exists_run hs hl hmeets
  exact ⟨w, out, s', hrun, hsaw, hw⟩

/-- Without a cancellation, a wait with valid settings comes to an end whatever the provider answers.
The outcome is told by what was seen last of each object. -/
theorem waitReady_awaits {k : Conditions σ} {s : Surroundings σ} {b : Backoff}
    {objects : List Resource} (hs : s.Uncanceled k) (hl : s.leads = none)
    (hb : b.validate = .ok ()) (hn : (identifiers objects).Nodup) :
    ∃ (w : Wait) (out : Except Failure Unit) (s' : Surroundings σ),
      (waitReady b objects).run (Surroundings.handler k) s = (some out, s') ∧
      s.Saw k w.moments s' ∧ Awaits b.steps objects w.passes out := by
  obtain ⟨w, out, s', hrun, hsaw, hw⟩ := exists_waits hs hl hb objects
  exact ⟨w, out, s', hrun, hsaw, hw.awaits (targets_nodup hn)⟩

end Engine

namespace Sample

/-- One object is ready at once, and another one is gone at the second pass. -/
def scripted : Provider (List (Except Refusal Resource)) where
  answer
    | .get _ _, answers => (answers.headD (.error .notFound), answers.tail)
    | .list _, answers => (.ok [], answers)
    | .create _, answers | .destroy _ _, answers | .tag _ _, answers => (.error .notFound, answers)

def created : List Resource :=
  [.backend ⟨some ⟨"b-1"⟩, "a", ⟨"lb-1"⟩, .tcp, .tcp, .ready true⟩,
    .frontend ⟨some ⟨"f-1"⟩, "a", ⟨"lb-1"⟩, ⟨"b-1"⟩, .tcp, .progressing⟩]

def sightings : List (Except Refusal Resource) :=
  created.map (fun r => .ok (if r.kind = .backend then r.withStatus (.ready false) else r))
    ++ [.error .notFound]

end Sample

theorem sample_awaits :
    (Surroundings.initial Sample.sightings).Uncanceled
      ⟨Sample.scripted, Sample.scripted, fun _ => false⟩ ∧
    (Surroundings.initial Sample.sightings).leads = none ∧ Backoff.standard.validate = .ok () ∧
    (identifiers Sample.created).Nodup ∧
    ∃ w s', (Engine.waitReady .standard Sample.created).run
        (Surroundings.handler ⟨Sample.scripted, Sample.scripted, fun _ => false⟩)
        (.initial Sample.sightings) = (some (.error (.resourcesFailed [⟨"f-1"⟩])), s') ∧
      Engine.Awaits 12 Sample.created (Wait.passes w) (.error (.resourcesFailed [⟨"f-1"⟩])) := by
  have hs : (Surroundings.initial Sample.sightings).Uncanceled
      ⟨Sample.scripted, Sample.scripted, fun _ => false⟩ := ⟨rfl, rfl, fun _ => rfl⟩
  have hb : Backoff.standard.validate = .ok () := by decide +kernel
  have hn : (identifiers Sample.created).Nodup := by decide +kernel
  have hout : ((Engine.waitReady .standard Sample.created).run
      (Surroundings.handler ⟨Sample.scripted, Sample.scripted, fun _ => false⟩)
      (.initial Sample.sightings)).1 = some (.error (.resourcesFailed [⟨"f-1"⟩])) := by
    decide +kernel
  obtain ⟨w, out, s', hrun, -, hawaits⟩ := Engine.waitReady_awaits hs rfl hb hn
  rw [hrun] at hout
  cases hout
  exact ⟨hs, rfl, hb, hn, w, s', hrun, hawaits⟩

end BalancerSync
