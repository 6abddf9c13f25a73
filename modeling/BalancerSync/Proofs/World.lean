import BalancerSync.Proofs.Effects
import BalancerSync.Proofs.Memory
import BalancerSync.Proofs.Program

namespace BalancerSync

structure Stance where
  /-- What the latest check saw. -/
  latest : Option Snapshot
  /-- Whether the program is in the section for one program at a time. -/
  inside : Bool
  /-- How many listings there had been when the program began to lead a round, if it leads one. -/
  leading : Option Nat
  /-- Whether the program takes no part in shared snapshots any more. -/
  left : Bool

structure World extends Stance where
  memory : Memory
  /-- The object that has been created and not been tagged, by whichever program. -/
  pending : Option Identifier

namespace World

variable {fresh : Nat → Identifier} {cancelable : Prop} {α : Type} {tag : Tag} {w : World}

abbrev inventory (w : World) : Inventory := w.memory.inventory

def pendingAfter (w : World) : (c : Call) → c.Answer → Option Identifier
  | .create _, .ok id => some id
  | .tag _ _, .ok () => none
  | _, _ => w.pending

def answer (fresh : Nat → Identifier) (c : Call) (w : World) : c.Answer × World :=
  let (answer, memory) := (Memory.provider fresh).answer c w.memory
  (answer, { w with memory, pending := w.pendingAfter c answer })

/-- What may come of a request. Whether the program can be canceled is up to the surroundings, and
so is what happens to its arrivals. -/
def Acts (fresh : Nat → Identifier) (cancelable : Prop) :
    (q : Request) → World → q.Reply → World → Prop
  | .call c, w, reply, w' => (reply, w') = w.answer fresh c
  | .watch c, w, reply, w' =>
    (cancelable ∧ reply = none ∧ w' = w) ∨ ∃ a, reply = some a ∧ (a, w') = w.answer fresh c
  | .isCanceled, w, reply, w' => (reply = true → cancelable) ∧ w' = w
  | .sleep _, w, reply, w' => (reply = true → cancelable) ∧ w' = w
  | .latest, w, reply, w' => reply = w.latest ∧ w' = w
  | .remember latest, w, _, w' => w' = { w with latest }
  | .enter, w, _, w' => w' = { w with inside := true }
  | .exit, w, _, w' => w' = { w with inside := false }
  | .draw, w, _, w' | .arrive _, w, _, w' | .release _, w, _, w' | .leave _, w, _, w' => w' = w

/-- Surroundings in which nobody else does anything, and which may cancel the program. -/
def adverse (fresh : Nat → Identifier) : Environment World where
  rely w w' := w' = w
  allows _ _ := True
  replies := Acts fresh True

theorem answer_get (kind : Kind) (id : Identifier) : w.answer fresh (.get kind id) =
    ((w.memory.get kind id).1, { w with memory := (w.memory.get kind id).2 }) := rfl

theorem answer_list : w.answer fresh (.list tag) =
    ((w.memory.list tag).1, { w with memory := (w.memory.list tag).2 }) := rfl

theorem answer_create (r : Resource) : w.answer fresh (.create r) =
    ((w.memory.create fresh r).1, { w with
      memory := (w.memory.create fresh r).2
      pending := w.pendingAfter (.create r) (w.memory.create fresh r).1 }) := rfl

theorem answer_destroy (kind : Kind) (id : Identifier) : w.answer fresh (.destroy kind id) =
    ((w.memory.destroy kind id).1, { w with memory := (w.memory.destroy kind id).2 }) := rfl

theorem answer_tag (id : Identifier) : w.answer fresh (.tag id tag) =
    ((w.memory.tag id tag).1, { w with
      memory := (w.memory.tag id tag).2
      pending := w.pendingAfter (.tag id tag) (w.memory.tag id tag).1 }) := rfl

inductive Effect (fresh : Nat → Identifier) (w : World) : Request → World → Prop
  | none (q : Request) : Effect fresh w q w
  | call (c : Call) : Effect fresh w (.call c) (w.answer fresh c).2
  | watch (c : Call) : Effect fresh w (.watch c) (w.answer fresh c).2
  | remember (latest : Option Snapshot) : Effect fresh w (.remember latest) { w with latest }
  | enter : Effect fresh w .enter { w with inside := true }
  | exit : Effect fresh w .exit { w with inside := false }

theorem Acts.effect {q : Request} {reply : q.Reply} {w' : World}
    (h : Acts fresh cancelable q w reply w') : Effect fresh w q w' := by
  cases q with
  | call c =>
    obtain ⟨-, rfl⟩ := Prod.mk.inj h
    exact .call c
  | watch c =>
    rcases h with ⟨-, -, rfl⟩ | ⟨a, -, h⟩
    · exact .none _
    · obtain ⟨-, rfl⟩ := Prod.mk.inj h
      exact .watch c
  | remember latest =>
    cases h
    exact .remember latest
  | enter =>
    cases h
    exact .enter
  | exit =>
    cases h
    exact .exit
  | isCanceled | sleep d | latest =>
    obtain ⟨-, rfl⟩ := h
    exact .none _
  | draw | arrive lb | release outcome | leave lb =>
    cases h
    exact .none _

/-- A request does nothing to the provider but that the call that it makes is answered. -/
theorem Acts.memory {q : Request} {reply : q.Reply} {w' : World}
    (h : Acts fresh cancelable q w reply w') : w'.memory = w.memory ∨
      ∃ c, (q = .call c ∨ q = .watch c) ∧
        w'.memory = ((Memory.provider fresh).answer c w.memory).2 := by
  cases h.effect with
  | call c => exact .inr ⟨c, .inl rfl, rfl⟩
  | watch c => exact .inr ⟨c, .inr rfl, rfl⟩
  | none | remember | enter | exit => exact .inl rfl

/-- Whatever comes of a request may come of it as well if the program can be canceled. -/
theorem Acts.mono {cancelable' : Prop} {q : Request} {reply : q.Reply} {w' : World}
    (h : Acts fresh cancelable q w reply w') (hc : cancelable → cancelable') :
    Acts fresh cancelable' q w reply w' := by
  cases q with
  | watch c => exact h.imp_left fun ⟨h, hsame⟩ => ⟨hc h, hsame⟩
  | isCanceled | sleep d => exact ⟨fun hreply => hc (h.1 hreply), h.2⟩
  | call c | latest | draw | remember latest | enter | exit | arrive lb | release outcome | leave lb =>
    exact h

section

variable {w : World} {post : Except Failure α → World → Prop}

/-- Requests in adverse surroundings. -/
theorem meets_call {c : Call} {f : c.Answer → Program α}
    (h : (f (w.answer fresh c).1).Meets (adverse fresh) post (w.answer fresh c).2) :
    (Program.request (.call c) >>= f).Meets (adverse fresh) post w := by
  refine Program.Meets.request ?_
  rintro w rfl
  refine ⟨trivial, fun reply w' hreply => ?_⟩
  obtain ⟨rfl, rfl⟩ := Prod.mk.inj hreply
  exact h

theorem meets_enter {f : Unit → Program α}
    (h : (f ()).Meets (adverse fresh) post { w with inside := true }) :
    (Program.request .enter >>= f).Meets (adverse fresh) post w := by
  rintro w rfl
  refine ⟨trivial, ?_⟩
  rintro - w' rfl
  exact h

theorem meets_exit {f : Unit → Program α}
    (h : (f ()).Meets (adverse fresh) post { w with inside := false }) :
    (Program.request .exit >>= f).Meets (adverse fresh) post w := by
  rintro w rfl
  refine ⟨trivial, ?_⟩
  rintro - w' rfl
  exact h

theorem meets_remember {latest : Option Snapshot} {f : Unit → Program α}
    (h : (f ()).Meets (adverse fresh) post { w with latest }) :
    (Program.request (.remember latest) >>= f).Meets (adverse fresh) post w := by
  rintro w rfl
  refine ⟨trivial, ?_⟩
  rintro - w' rfl
  exact h

theorem meets_checkpoint {f : Unit → Program α} (h : (f ()).Meets (adverse fresh) post w)
    (hc : post (.error .canceled) w) : (Program.checkpoint >>= f).Meets (adverse fresh) post w := by
  rintro w rfl
  refine ⟨trivial, ?_⟩
  rintro canceled w ⟨-, rfl⟩
  cases canceled with
  | false => exact h
  | true => exact hc

end

def Fits (w : World) (s : Schedule Memory α) (t : Task α) : Prop :=
  w.memory = s.provider ∧ w.latest = t.latest

theorem modifyTask_of_single {s : Schedule Memory α} {t : Task α} (hs : s.tasks = [t])
    (f : Task α → Task α) : (s.modifyTask 0 f).tasks = [f t] := by
  simp [Schedule.modifyTask, hs]

def Leads (fresh : Nat → Identifier) (q : Request) (w : World) (t : Task α)
    (out : Option q.Reply × Schedule Memory α) : Prop :=
  ∃ t', out.2.tasks = [t'] ∧ t'.program = t.program ∧
    match out.1 with
    | none => w.Fits out.2 t'
    | some reply => ∃ w', Acts fresh True q w reply w' ∧ w'.Fits out.2 t'

section

variable {s : Schedule Memory α} {t : Task α} {w : World}

/-- A request of the only task has no effect but those that are known. -/
theorem leads_handler (hs : s.tasks = [t]) (hw : w.Fits s t) (q : Request) :
    Leads fresh q w t (Schedule.handler (Memory.provider fresh) 0 q s) := by
  have hsame (f : Task α → Task α) : (s.modifyTask 0 f).tasks = [f t] := modifyTask_of_single hs f
  have hanswer (c : Call) : ∃ w',
      (((Memory.provider fresh).answer c s.provider).1, w') = w.answer fresh c ∧
        w'.Fits { s with provider := ((Memory.provider fresh).answer c s.provider).2 } t := by
    rw [← hw.1]
    exact ⟨_, rfl, rfl, hw.2⟩
  have h := Schedule.handler_effect (Memory.provider fresh) 0 q s
  generalize Schedule.handler (Memory.provider fresh) 0 q s = out at h ⊢
  cases h with
  | call c => exact ⟨t, hs, rfl, hanswer c⟩
  | unseen c => exact ⟨t, hs, rfl, w, .inl ⟨trivial, rfl, rfl⟩, hw⟩
  | watch c =>
    obtain ⟨w', hacts, hw'⟩ := hanswer c
    exact ⟨t, hs, rfl, w', .inr ⟨_, rfl, hacts⟩, hw'⟩
  | isCanceled => exact ⟨t, hs, rfl, w, ⟨fun _ => trivial, rfl⟩, hw⟩
  | sleep d reply =>
    refine ⟨_, hsame _, rfl, ?_⟩
    cases reply with
    | none => exact hw
    | some reply => exact ⟨w, ⟨fun _ => trivial, rfl⟩, hw⟩
  | latest => exact ⟨t, hs, rfl, w, ⟨by simp [hs, hw.2], rfl⟩, hw⟩
  | remember latest => exact ⟨_, hsame _, rfl, { w with latest }, rfl, hw.1, rfl⟩
  | enter => exact ⟨t, hs, rfl, _, rfl, hw⟩
  | exit => exact ⟨t, hs, rfl, _, rfl, hw⟩
  | @arrive lb a meeting reply =>
    refine ⟨_, hsame _, rfl, ?_⟩
    cases reply with
    | none => exact hw
    | some turn => exact ⟨w, rfl, hw⟩
  | release outcome a reply =>
    refine ⟨_, hsame _, rfl, ?_⟩
    cases reply with
    | none => exact hw
    | some outcome => exact ⟨w, rfl, hw⟩
  | held | asleep | shut | aimless => exact ⟨t, hs, rfl, hw⟩
  | draw | leave => exact ⟨t, hs, rfl, w, rfl, hw⟩

end

/-- The environment covers all that may come of the requests that it allows, and what holds goes on
to hold. -/
structure Sustained (fresh : Nat → Identifier) (e : Environment World) (I : World → Prop) : Prop where
  idle : ∀ w, e.rely w w
  acts : ∀ q w reply w', I w → e.allows q w → Acts fresh True q w reply w' →
    e.replies q w reply w' ∧ I w'

/-- The only task of a schedule has a world around it in which something holds, and in which it comes
to what is asked for. -/
def Follows (e : Environment World) (I : World → Prop) (post : Except Failure α → World → Prop)
    (s : Schedule Memory α) : Prop :=
  ∃ t w, s.tasks = [t] ∧ w.Fits s t ∧ I w ∧ t.program.Meets e post w

namespace Follows

variable {e : Environment World} {I : World → Prop} {post : Except Failure α → World → Prop}
  {s : Schedule Memory α}

theorem step (hI : Sustained fresh e I) (h : Follows e I post s) (i : Nat) :
    Follows e I post (s.step (Memory.provider fresh) i) := by
  obtain ⟨t, w, hs, hw, hIw, hp⟩ := h
  rw [Schedule.step, hs]
  cases i with
  | succ i => exact ⟨t, w, hs, hw, hIw, hp⟩
  | zero =>
    simp only [List.getElem?_cons_zero]
    cases hprogram : t.program with
    | done a =>
      rw [hprogram] at hp
      exact ⟨_, w, modifyTask_of_single hs _, hw, hIw, hp⟩
    | fail failure =>
      rw [hprogram] at hp
      exact ⟨_, w, modifyTask_of_single hs _, hw, hIw, hp⟩
    | ask q next =>
      rw [hprogram] at hp
      obtain ⟨hallows, hnext⟩ := hp w (hI.idle w)
      obtain ⟨t', hs', ht', hout⟩ := @leads_handler fresh _ s t w hs hw q
      rw [Program.step]
      generalize Schedule.handler (Memory.provider fresh) 0 q s = out at hs' hout
      obtain ⟨reply, s'⟩ := out
      cases reply with
      | none => exact ⟨_, w, modifyTask_of_single hs' _, hout, hIw, hp⟩
      | some reply =>
        obtain ⟨w', hacts, hw'⟩ := hout
        obtain ⟨hreplies, hIw'⟩ := hI.acts q w reply w' hIw hallows hacts
        exact ⟨_, w', modifyTask_of_single hs' _, hw', hIw', hnext reply w' hreplies⟩

theorem cancel (h : Follows e I post s) (i : Nat) : Follows e I post (s.cancel i) := by
  obtain ⟨t, w, hs, hw, hp⟩ := h
  rw [Schedule.cancel]
  cases i with
  | succ i =>
    have hsame : (s.modifyTask (i + 1) fun t => { t with canceled := true }).tasks = [t] := by
      simp [Schedule.modifyTask, hs]
    split
    · exact ⟨t, w, hsame, hw, hp⟩
    · exact ⟨t, w, hsame, hw, hp⟩
  | zero =>
    split
    · exact ⟨_, w, modifyTask_of_single hs _, hw, hp⟩
    · exact ⟨_, w, modifyTask_of_single hs _, hw, hp⟩

theorem move (hI : Sustained fresh e I) (h : Follows e I post s) (m : Schedule.Move) :
    Follows e I post (s.move (Memory.provider fresh) m) := by
  cases m with
  | step i => exact h.step hI i
  | cancel i => exact h.cancel i
  | elapse milliseconds => exact h

theorem play (hI : Sustained fresh e I) (h : Follows e I post s) (moves : List Schedule.Move) :
    Follows e I post (s.play (Memory.provider fresh) moves) := by
  induction moves generalizing s with
  | nil => exact h
  | cons m moves ih => exact ih (h.move hI m)

end Follows

end World

namespace Schedule

variable {σ α : Type}

/-- The only task is about to run the program, and remembers what a check has seen. -/
def Starts (s : Schedule σ α) (p : Program α) (latest : Option Snapshot) : Prop :=
  ∃ canceled, s.tasks = [⟨p, canceled, latest, none, none⟩]

/-- The only task has come to an end, and remembers what a check has seen. -/
def Ends (s : Schedule σ α) (out : Except Failure α) (latest : Option Snapshot) : Prop :=
  ∃ t, s.tasks = [t] ∧ t.result? = some out ∧ t.latest = latest

theorem ends_iff {s : Schedule σ α} {out : Except Failure α} {latest : Option Snapshot} :
    s.Ends out latest ↔ s.tasks.map (fun t => (t.result?, t.latest)) = [(some out, latest)] := by
  constructor
  · rintro ⟨t, ht, hr, rfl⟩
    simp [ht, hr]
  · intro h
    obtain ⟨t, ht, heq⟩ := List.map_eq_singleton_iff.1 h
    obtain ⟨hr, hl⟩ := Prod.mk.inj heq
    exact ⟨t, ht, hr, hl⟩

instance [DecidableEq α] {s : Schedule σ α} {out : Except Failure α} {latest : Option Snapshot} :
    Decidable (s.Ends out latest) := decidable_of_iff _ ends_iff.symm

end Schedule

namespace World

variable {fresh : Nat → Identifier} {α : Type} {post : Except Failure α → World → Prop}
  {s : Schedule Memory α} {p : Program α} {latest latest' : Option Snapshot}
  {out : Except Failure α}

/-- The world of a task that has not made any request. -/
def start (m : Memory) (latest : Option Snapshot) : World := ⟨⟨latest, false, none, false⟩, m, none⟩

section

variable {e : Environment World} {I : World → Prop}

theorem Follows.of_starts (h : s.Starts p latest) (hI : I (start s.provider latest))
    (hp : p.Meets e post (start s.provider latest)) : Follows e I post s := by
  obtain ⟨canceled, ht⟩ := h
  exact ⟨_, _, ht, ⟨rfl, rfl⟩, hI, hp⟩

theorem Follows.exists_of_ends (h : Follows e I post s) (hout : s.Ends out latest) :
    ∃ w, w.memory = s.provider ∧ w.latest = latest ∧ I w ∧ post out w := by
  obtain ⟨t, w, ht, ⟨hm, hl⟩, hI, hp⟩ := h
  obtain ⟨t', ht', hr, rfl⟩ := hout
  cases ht.symm.trans ht'
  refine ⟨w, hm, hl, hI, ?_⟩
  rw [Task.result?] at hr
  cases hprogram : t.program with
  | done a =>
    rw [hprogram] at hp hr
    cases hr
    exact hp
  | fail failure =>
    rw [hprogram] at hp hr
    cases hr
    exact hp
  | ask q next =>
    rw [hprogram] at hr
    cases hr

end

/-- What the only task comes to, whatever happens to it. -/
theorem exists_of_play {moves : List Schedule.Move} (h : s.Starts p latest)
    (hp : p.Meets (adverse fresh) post (start s.provider latest))
    (hout : (s.play (Memory.provider fresh) moves).Ends out latest') :
    ∃ w, w.memory = (s.play (Memory.provider fresh) moves).provider ∧ w.latest = latest' ∧
      post out w := by
  have hsustained : Sustained fresh (adverse fresh) fun _ => True :=
    ⟨fun _ => rfl, fun _ _ _ _ _ _ h => ⟨h, trivial⟩⟩
  obtain ⟨w, hm, hl, -, hpost⟩ :=
    ((Follows.of_starts h trivial hp).play hsustained moves).exists_of_ends hout
  exact ⟨w, hm, hl, hpost⟩

end World

end BalancerSync
