import BalancerSync.Proofs.Alone

namespace BalancerSync

open Program

variable {σ : Type}

/-- What is looked at. -/
abbrev Target := Kind × Identifier

structure Look where
  kind : Kind
  id : Identifier
  answer : Except Refusal Resource

namespace Look

def target (l : Look) : Target := (l.kind, l.id)

def event (l : Look) : Event := .called (.get l.kind l.id)

end Look

inductive Moment
  | saw (l : Look)
  | slept (milliseconds : Nat)

def Moment.event : Moment → Event
  | saw l => l.event
  | slept milliseconds => .slept milliseconds

def Moment.look? : Moment → Option Look
  | saw l => some l
  | slept _ => none

/-- The provider after some calls, whatever it has answered. -/
def Provider.after (p : Provider σ) (s : σ) (calls : List Call) : σ :=
  calls.foldl (fun s c => (p.answer c s).2) s

theorem Provider.after_append (p : Provider σ) (s : σ) (before after : List Call) :
    p.after s (before ++ after) = p.after (p.after s before) after := List.foldl_append

def Provider.Shows (p : Provider σ) : σ → List Moment → σ → Prop
  | s, [], s' => s' = s
  | s, .saw l :: rest, s' => (p.answer (.get l.kind l.id) s).1 = l.answer ∧
      p.Shows (p.answer (.get l.kind l.id) s).2 rest s'
  | s, .slept _ :: rest, s' => p.Shows s rest s'

theorem Provider.shows_append {p : Provider σ} {s s' : σ} {before after : List Moment} :
    p.Shows s (before ++ after) s' ↔ ∃ t, p.Shows s before t ∧ p.Shows t after s' := by
  induction before generalizing s with
  | nil => simp [Shows]
  | cons m before ih =>
    cases m with
    | saw l => simp only [List.cons_append, Shows, ih, and_assoc, exists_and_left]
    | slept milliseconds => exact ih

namespace Surroundings

/-- The moments are all that has happened. -/
structure Saw (k : Conditions σ) (s : Surroundings σ) (moments : List Moment)
    (s' : Surroundings σ) : Prop extends s'.Uncanceled k where
  leads : s'.leads = none
  shows : k.own.Shows s.provider moments s'.provider
  events : s'.events = (moments.map Moment.event).reverse ++ s.events

end Surroundings

def Request.Watches : Request → Prop
  | .call (.get _ _) | .watch (.get _ _) | .isCanceled | .sleep _ | .draw => True
  | _ => False

namespace Engine

/-- Surroundings that show objects, in whatever way, and let time go by. They keep the moments. -/
def showing : Environment (List Moment) where
  rely moments moments' := moments' = moments
  allows q _ := q.Watches
  replies
    | .call (.get kind id), moments, answer, moments' =>
      moments' = moments ++ [.saw ⟨kind, id, answer⟩]
    | .watch (.get kind id), moments, reply, moments' =>
      ∃ answer, reply = some answer ∧ moments' = moments ++ [.saw ⟨kind, id, answer⟩]
    | .isCanceled, moments, canceled, moments' => canceled = false ∧ moments' = moments
    | .sleep d, moments, canceled, moments' =>
      canceled = false ∧ moments' = moments ++ [.slept d.milliseconds]
    | .draw, moments, _, moments' => moments' = moments
    | _, _, _, _ => False

section

variable {α : Type} {post : Except Failure α → List Moment → Prop} {moments : List Moment}
  {kind : Kind} {id : Identifier}

theorem showing_checkpoint {f : Unit → Program α} (h : (f ()).Meets showing post moments) :
    (checkpoint >>= f).Meets showing post moments := by
  rintro _ rfl
  refine ⟨trivial, ?_⟩
  rintro canceled _ ⟨rfl, rfl⟩
  exact h

theorem showing_get {f : Except Refusal Resource → Program α}
    (h : ∀ answer, (f answer).Meets showing post (moments ++ [.saw ⟨kind, id, answer⟩])) :
    (request (.call (.get kind id)) >>= f).Meets showing post moments := by
  rintro _ rfl
  refine ⟨trivial, ?_⟩
  rintro answer _ rfl
  exact h answer

theorem showing_watch {f : Option (Except Refusal Resource) → Program α}
    (h : ∀ answer, (f (some answer)).Meets showing post (moments ++ [.saw ⟨kind, id, answer⟩])) :
    (request (.watch (.get kind id)) >>= f).Meets showing post moments := by
  rintro _ rfl
  refine ⟨trivial, ?_⟩
  rintro reply _ ⟨answer, rfl, rfl⟩
  exact h answer

end

end Engine

namespace Surroundings

variable {k : Conditions σ} {s t : Surroundings σ} {moments : List Moment}

theorem Saw.nil (hs : s.Uncanceled k) (hl : s.leads = none) : s.Saw k [] s :=
  { hs with leads := hl, shows := rfl, events := rfl }

theorem Saw.look (h : s.Saw k moments t) (kind : Kind) (id : Identifier) :
    s.Saw k (moments ++ [.saw ⟨kind, id, (k.own.answer (.get kind id) t.provider).1⟩])
      { t.record k (.called (.get kind id)) with
        provider := (k.own.answer (.get kind id) t.provider).2 } where
  notCanceled := (h.record _).notCanceled
  noTime := h.noTime
  noEvent := h.noEvent
  leads := h.leads
  shows := Provider.shows_append.2 ⟨t.provider, h.shows, rfl, rfl⟩
  events := by
    show Event.called _ :: t.events = _
    rw [h.events, List.map_append, List.reverse_append]
    rfl

theorem Saw.handler (h : s.Saw k moments t) {q : Request} (hq : q.Watches) :
    ∃ reply moments', (handler k q t).1 = some reply ∧
      Engine.showing.replies q moments reply moments' ∧
      s.Saw k moments' (handler k q t).2 := by
  cases q with
  | call c =>
    cases c with
    | get kind id =>
      rw [Surroundings.handler, answer_eq h.leads]
      exact ⟨_, _, rfl, rfl, h.look kind id⟩
    | _ => exact hq.elim
  | watch c =>
    cases c with
    | get kind id =>
      rw [Surroundings.handler, answer_eq h.leads]
      exact ⟨_, _, rfl, ⟨_, rfl, rfl⟩, h.look kind id⟩
    | _ => exact hq.elim
  | isCanceled => exact ⟨false, moments, congrArg some h.notCanceled, ⟨rfl, rfl⟩, h⟩
  | sleep d =>
    rw [Surroundings.handler, h.sleep d]
    refine ⟨false, _, rfl, ⟨rfl, rfl⟩, ⟨(h.record _).notCanceled, h.noTime, h.noEvent⟩, h.leads,
      Provider.shows_append.2 ⟨t.provider, h.shows, rfl⟩, ?_⟩
    show Event.slept _ :: t.events = _
    rw [h.events, List.map_append, List.reverse_append]
    rfl
  | draw => exact ⟨_, moments, rfl, rfl, { h with }⟩
  | _ => exact hq.elim

/-- What a program comes to in surroundings that show objects it does come to. -/
theorem exists_run {α : Type} {p : Program α} {post : Except Failure α → List Moment → Prop}
    (hs : s.Uncanceled k) (hl : s.leads = none) (hp : p.Meets Engine.showing post []) :
    ∃ out s' moments, p.run (Surroundings.handler k) s = (some out, s') ∧ s.Saw k moments s' ∧
      post out moments :=
  Meets.exists_run (R := fun moments t => s.Saw k moments t) (fun _ => rfl)
    (fun _ _ _ h hq => h.handler hq) (.nil hs hl) hp

end Surroundings

end BalancerSync
