import BalancerSync.Proofs.Exchanges
import BalancerSync.Proofs.Integrity
import BalancerSync.Proofs.Standstill

namespace BalancerSync

open Program

variable {α : Type}

/-- Whether a program that is canceled during the request is to stop as soon as it has its reply. -/
def Request.Halts : Request → Prop
  | .call (.create _) | .call (.destroy _ _) | .sleep _ => True
  | _ => False

inductive Loose
  /-- It carries its tag, or nothing has been created. -/
  | nothing
  | untagged (id : Identifier)
  /-- It could not be tagged. -/
  | lost (id : Identifier)

structure Course where
  loose : Loose
  /-- Whether the program has been canceled during a request that halts it. -/
  halted : Bool

namespace Course

variable {c : Course}

def halt (c : Course) (canceled : Bool) : Course := { c with halted := c.halted || canceled }

def next (c : Course) (canceled : Bool) : (q : Request) → q.Reply → Course
  | .call (.create _), .ok id => { c.halt canceled with loose := .untagged id }
  | .call (.create _), .error _ => c.halt canceled
  | .call (.destroy _ _), _ => c.halt canceled
  | .call (.tag _ _), .ok _ => { c with loose := .nothing }
  | .call (.tag id _), .error _ => { c with loose := .lost id }
  | .sleep _, _ => c.halt canceled
  | _, _ => c

/-- What a program may ask for. When it is halted it does not call the provider except to tag what it
has created. -/
def Allows (tag : Tag) (c : Course) : Request → Prop
  | .call (.tag id tag') => c.loose = .untagged id ∧ tag' = tag
  | .call _ => c.loose = .nothing ∧ c.halted = false
  | .watch c' => c.loose = .nothing ∧ c'.Looks
  | .sleep _ => c.loose = .nothing
  | .enter => c.halted = false
  | .arrive _ | .release _ | .leave _ => False
  | _ => True

theorem ne_untagged (h : c.loose = .nothing) (id : Identifier) : c.loose ≠ .untagged id := by
  rw [h]
  exact Loose.noConfusion

theorem halted_next {q : Request} {reply : q.Reply} (h : q.Halts) :
    (c.next true q reply).halted = true := by
  cases q with
  | call call =>
    cases call with
    | create r => cases reply <;> exact Bool.or_true _
    | destroy kind id => exact Bool.or_true _
    | get | list | tag => exact h.elim
  | sleep d => exact Bool.or_true _
  | _ => exact h.elim

/-- A program that is halted and gets a reply has not called the provider, or has tagged what it had
created. -/
theorem next_of_halted {tag : Tag} {q : Request} {reply : q.Reply} (canceled : Bool)
    (h : c.halted = true) (hq : c.Allows tag q) (hears : q.Hears true reply) :
    (q.exchange? reply = none ∧ (c.next canceled q reply).loose = c.loose ∧
      (c.next canceled q reply).halted = true) ∨
    ∃ id a, c.loose = .untagged id ∧ q.exchange? reply = some ⟨.tag id tag, a⟩ ∧
      (c.next canceled q reply).halted = true ∧
      ∀ id, (c.next canceled q reply).loose ≠ .untagged id := by
  cases q with
  | call call =>
    cases call with
    | tag id tag' =>
      obtain ⟨hid, rfl⟩ := hq
      refine .inr ⟨id, reply, hid, rfl, ?_⟩
      cases reply <;> exact ⟨h, nofun⟩
    | _ =>
      have hhalted := hq.2.symm.trans h
      cases hhalted
  | watch call =>
    obtain rfl : reply = none := hears rfl
    exact .inl ⟨rfl, rfl, h⟩
  | sleep d => exact .inl ⟨rfl, rfl, by simp [next, halt, h]⟩
  | _ => exact .inl ⟨rfl, rfl, h⟩

end Course

def Environment.interrupting (tag : Tag) : Environment Course where
  rely c c' := c' = c
  allows q c := c.Allows tag q
  replies q c reply c' :=
    (∃ canceled, c' = c.next canceled q reply) ∧ (c.halted = true → q.Hears true reply)

namespace Course

variable {c : Course} {tag : Tag} {p : Program α} {post : Except Failure α → Course → Prop}

def Clear (_ : Except Failure α) (c : Course) : Prop := c.loose = .nothing

/-- Nothing has been created that does not carry its tag, but for an object that the failure names. -/
def Accounted (out : Except Failure α) (c : Course) : Prop :=
  c.loose = .nothing ∨ ∃ id reason, c.loose = .lost id ∧ out = .error (.notTagged id reason)

theorem Accounted.clear {a : α} (h : Accounted (.ok a) c) : c.loose = .nothing := h.resolve_right nofun

theorem Accounted.error {β : Type} {failure : Failure}
    (h : Accounted (.error failure : Except Failure α) c) : Accounted (.error failure : Except Failure β) c := by
  refine h.imp_right ?_
  rintro ⟨id, reason, hid, heq⟩
  cases heq
  exact ⟨id, reason, hid, rfl⟩

theorem meets_checkpoint {f : Unit → Program α}
    (h : c.halted = false → (f ()).Meets (.interrupting tag) post c)
    (hc : post (.error .canceled) c) : (checkpoint >>= f).Meets (.interrupting tag) post c := by
  rintro c rfl
  refine ⟨trivial, ?_⟩
  rintro canceled c' ⟨⟨-, rfl⟩, hears⟩
  cases canceled with
  | true => exact hc
  | false =>
    refine h ?_
    by_contra hhalted
    cases show false = true from hears (by simpa using hhalted)

theorem meets_of_yields (hp : p.Makes Request.Yields) (hc : c.loose = .nothing) :
    p.Meets (.interrupting tag) (fun _ c' => c' = c) c := by
  refine hp.meets rfl (fun _ _ h h' => h'.trans h) ?_ ?_
  · rintro q _ hq rfl
    cases q with
    | watch c' => exact ⟨hc, hq⟩
    | isCanceled | draw | latest | remember => trivial
    | _ => exact hq.elim
  · rintro q _ reply c' hq rfl ⟨⟨canceled, rfl⟩, -⟩
    cases q with
    | watch | isCanceled | draw | latest | remember => rfl
    | _ => exact hq.elim

end Course

open Engine Course

namespace Engine

variable {tag : Tag} {c : Course} {b : Backoff}

theorem pollOne_meets_clear (t : Tracked) (hc : c.loose = .nothing) :
    (pollOne t).Meets (.interrupting tag) Clear c := by
  refine meets_checkpoint (fun hhalted => ?_) hc
  rintro c rfl
  refine ⟨⟨hc, hhalted⟩, ?_⟩
  rintro reply c' ⟨⟨-, rfl⟩, -⟩
  cases reply with
  | ok r => exact hc
  | error refusal => cases refusal <;> exact hc

theorem pollAll_meets_clear (first : Bool) (tracked : List Tracked) (hc : c.loose = .nothing) :
    (pollAll first tracked).Meets (.interrupting tag) Clear c := by
  induction tracked generalizing c with
  | nil => exact hc
  | cons t rest ih =>
    rw [pollAll]
    split
    · exact (ih hc).bind (fun _ _ h => h) fun _ _ h => h
    · refine (pollOne_meets_clear t hc).bind (fun _ _ hc => ?_) fun _ _ h => h
      exact (ih hc).bind (fun _ _ h => h) fun _ _ h => h

theorem pause_meets_clear (current : Duration) (hc : c.loose = .nothing) :
    (pause b current).Meets (.interrupting tag) Clear c := by
  have hsleep (waiting next : Duration) {c : Course} (hc : c.loose = .nothing) : (do
      if ← request (.sleep waiting) then fail .canceled
      return next : Program Duration).Meets (.interrupting tag) Clear c := by
    rintro c rfl
    refine ⟨hc, ?_⟩
    rintro canceled c' ⟨⟨halted, rfl⟩, -⟩
    cases canceled <;> exact hc
  rw [pause]
  split
  · rintro c rfl
    refine ⟨trivial, ?_⟩
    rintro draw c' ⟨⟨-, rfl⟩, -⟩
    exact hsleep _ _ hc
  · exact hsleep _ _ hc

theorem pollUntilReady_meets_clear (pauses : Nat) (current : Duration) (first : Bool)
    (tracked : List Tracked) (hc : c.loose = .nothing) :
    (pollUntilReady b pauses current first tracked).Meets (.interrupting tag) Clear c := by
  induction pauses generalizing current first tracked c with
  | zero =>
    refine (pollAll_meets_clear first tracked hc).bind (fun tracked c hc => ?_) fun _ _ h => h
    cases Tracked.progressing tracked with
    | error failure => exact hc
    | ok ids => cases ids <;> exact hc
  | succ pauses ih =>
    refine (pollAll_meets_clear first tracked hc).bind (fun tracked c hc => ?_) fun _ _ h => h
    cases Tracked.progressing tracked with
    | error failure => exact hc
    | ok ids =>
      cases ids with
      | nil => exact hc
      | cons id ids =>
        exact (pause_meets_clear current hc).bind (fun next _ hc => ih next false tracked hc)
          fun _ _ h => h

/-- A program that waits stops at the next object, or before it goes on. -/
theorem settle_meets_clear (rs : List Resource) (hc : c.loose = .nothing) :
    (settle b rs).Meets (.interrupting tag) Clear c := by
  have hwait : (waitReady b rs).Meets (.interrupting tag) Clear c := by
    rw [waitReady]
    cases b.validate with
    | error failure => exact hc
    | ok _ => exact pollUntilReady_meets_clear _ _ _ _ hc
  refine hwait.attempt fun out c hc => ?_
  split <;> exact hc

theorem createTagged_meets_accounted (r : Resource) (hc : c.loose = .nothing)
    (hhalted : c.halted = false) :
    (createTagged tag r).Meets (.interrupting tag) Accounted c := by
  rintro c rfl
  refine ⟨hhalted, ?_⟩
  rintro - c' ⟨⟨-, rfl⟩, -⟩
  rintro c rfl
  refine ⟨⟨hc, hhalted⟩, ?_⟩
  rintro created c' ⟨⟨canceled, rfl⟩, -⟩
  cases created with
  | error refusal =>
    rintro c rfl
    refine ⟨trivial, ?_⟩
    rintro - c' ⟨⟨-, rfl⟩, -⟩
    exact .inl hc
  | ok id =>
    rintro c rfl
    refine ⟨⟨rfl, rfl⟩, ?_⟩
    rintro tagged c' ⟨⟨-, rfl⟩, -⟩
    rintro c rfl
    refine ⟨trivial, ?_⟩
    rintro - c' ⟨⟨-, rfl⟩, -⟩
    cases tagged with
    | error refusal => exact .inr ⟨id, refusal.message, rfl, rfl⟩
    | ok _ => exact .inl rfl

theorem createEach_meets_accounted (rs : List Resource) (hc : c.loose = .nothing) :
    (createEach tag rs).Meets (.interrupting tag) Accounted c := by
  induction rs generalizing c with
  | nil => exact .inl hc
  | cons r rs ih =>
    refine meets_checkpoint (fun hhalted => ?_) (.inl hc)
    refine (createTagged_meets_accounted r hc hhalted).bind (fun created c hc => ?_)
      fun _ _ h => h.error
    exact (ih hc.clear).bind (fun _ _ h => .inl h.clear) fun _ _ h => h.error

theorem createAll_meets_accounted (rs : List Resource) (hc : c.loose = .nothing) :
    (createAll tag b rs).Meets (.interrupting tag) Accounted c :=
  (createEach_meets_accounted _ hc).bind
    (fun created _ hc => (settle_meets_clear created hc.clear).mono fun _ _ h => .inl h)
    fun _ _ h => h.error

theorem destroyPass_meets_clear (refused queue : List Resource) (hc : c.loose = .nothing) :
    (destroyPass refused queue).Meets (.interrupting tag) Clear c := by
  induction queue generalizing c refused with
  | nil => exact hc
  | cons r queue ih =>
    rw [destroyPass]
    refine meets_checkpoint (fun hhalted => ?_) hc
    split
    · exact hc
    · rintro c rfl
      refine ⟨⟨hc, hhalted⟩, ?_⟩
      rintro reply c' ⟨⟨canceled, rfl⟩, -⟩
      cases reply with
      | ok _ => exact ih _ hc
      | error refusal =>
        cases refusal with
        | rateLimited => exact hc
        | _ => exact ih _ hc

theorem destroyPasses_meets_clear (passes : Nat) (pending : List Resource) (hc : c.loose = .nothing) :
    (destroyPasses passes pending).Meets (.interrupting tag) Clear c := by
  induction passes generalizing c pending with
  | zero => exact hc
  | succ passes ih =>
    rw [destroyPasses]
    refine (destroyPass_meets_clear [] pending hc).bind (fun refused c hc => ?_) fun _ _ h => h
    split
    · exact hc
    · split
      · exact hc
      · exact ih refused hc

end Engine

namespace Reconciliation

variable {l : Layout} {c : Course}

theorem act_meets_accounted (plan : Plan) (hc : c.loose = .nothing) :
    ((direct l).act plan).Meets (.interrupting l.service.tag) Accounted c := by
  rw [act]
  split
  · exact createAll_meets_accounted plan.create hc
  · exact (destroyPasses_meets_clear _ _ hc).mono fun _ _ h => .inl h

def Heeds (out : Except Failure Unit) (c : Course) : Prop :=
  Accounted out c ∧ (c.halted = true → out ≠ .ok ())

theorem Heeds.of_error {failure : Failure} (h : c.loose = .nothing) : Heeds (.error failure) c :=
  ⟨.inl h, nofun⟩

/-- A reconciliation that is halted stops before its next cycle, if not earlier. -/
theorem converge_meets_heeds (cycles : Nat) (hc : c.loose = .nothing) :
    ((direct l).converge cycles).Meets (.interrupting l.service.tag) Heeds c := by
  induction cycles generalizing c with
  | zero => exact .of_error hc
  | succ cycles ih =>
    rw [converge_succ]
    refine meets_checkpoint (fun hhalted => ?_) (.of_error hc)
    refine (meets_of_yields check_yields hc).attempt ?_
    rintro out c rfl
    split
    · refine (meets_of_yields progressing_yields hc).bind ?_ ?_
      · rintro rs c rfl
        exact (settle_meets_clear rs hc).bind (fun _ _ h => ih h) fun _ _ h => .of_error h
      · rintro failure c rfl
        exact .of_error hc
    · exact .of_error hc
    · split
      · exact ⟨.inl hc, fun h => by rw [hhalted] at h; cases h⟩
      · rintro c rfl
        refine ⟨trivial, ?_⟩
        rintro - c' ⟨⟨-, rfl⟩, -⟩
        exact (act_meets_accounted _ hc).bind (fun _ _ h => ih h.clear) fun _ _ h => ⟨h, nofun⟩

theorem reconcile_meets_heeds (hc : c.loose = .nothing) :
    (direct l).reconcile.Meets (.interrupting l.service.tag) Heeds c := by
  refine (converge_meets_heeds _ hc).attempt fun out c hout => ?_
  cases out <;> exact hout

end Reconciliation

/-- What a program still exchanges with its provider once it is canceled during a request. -/
inductive Parting (tag : Tag) : Request → List Exchange → Prop
  | nothing {q : Request} : Parting tag q []
  | destroyed {kind : Kind} {id : Identifier} (a : Except Refusal Unit) :
      Parting tag (.call (.destroy kind id)) [⟨.destroy kind id, a⟩]
  | created {r : Resource} (a : Except Refusal Identifier) :
      Parting tag (.call (.create r)) [⟨.create r, a⟩]
  | tagged {r : Resource} {id : Identifier} (a : Except Refusal Unit) :
      Parting tag (.call (.create r)) [⟨.create r, .ok id⟩, ⟨.tag id tag, a⟩]

variable {fresh : Nat → Identifier} {tag : Tag} {c c' : Course} {log : List Exchange} {m : Memory}

/-- What has been created carries the tag if it is there, unless it has been left open. -/
def Labelled (tag : Tag) (log : List Exchange) (c : Course) (m : Memory) : Prop :=
  ∀ r id, ⟨.create r, .ok id⟩ ∈ log → ∀ q, m.inventory.objects.get? id = some q →
    m.inventory.Carries tag id ∨ c.loose = .untagged id ∨ c.loose = .lost id

namespace Labelled

variable {canceled : Bool}

theorem answer {call : Call} {out : call.Answer × Memory} (h : Labelled tag log c m)
    (hallowed : c.Allows tag (.call call) ∨ call.Looks) (heffect : m.Effect fresh call out) :
    Labelled tag (log ++ [⟨call, out.1⟩]) (c.next canceled (.call call) out.1) out.2 := by
  intro r id hmem
  have hold (hne : ∀ r id, (⟨call, out.1⟩ : Exchange) ≠ ⟨.create r, .ok id⟩) :
      ⟨.create r, .ok id⟩ ∈ log := by
    rcases List.mem_append.1 hmem with hmem | hmem
    · exact hmem
    · exact absurd (List.mem_singleton.1 hmem).symm (hne r id)
  cases heffect with
  | @kept _ out hv hi hk =>
    intro q hq
    rw [hv] at hq ⊢
    obtain ⟨a, m'⟩ := out
    cases call with
    | get kind j | list tag' => exact h r id (hold fun _ _ h => by cases h) q hq
    | create p =>
      obtain ⟨refusal, rfl⟩ := hk.resolve_left fun h => h
      exact h r id (hold fun _ _ h => by cases h) q hq
    | destroy kind j => exact h r id (hold fun _ _ h => by cases h) q hq
    | tag j tag' =>
      obtain ⟨refusal, rfl⟩ := hk.resolve_left fun h => h
      refine (h r id (hold fun _ _ h => by cases h) q hq).imp_right fun hloose => .inr ?_
      obtain ⟨hj, -⟩ := hallowed.resolve_right fun h => h
      rcases hloose with hid | hid
      · cases hj.symm.trans hid
        rfl
      · cases hj.symm.trans hid
  | @deployed j p hp hs =>
    intro q hq
    have hv := Inventory.Resembles.of_withStatus hp (m.faults.finalStatus p.name)
    obtain ⟨q', hq', -⟩ := hv.symm.exists_get? hq
    exact (h r id (hold fun _ _ h => by cases h) q' hq').imp_left hv.carries_iff.2
  | @created p hres =>
    obtain ⟨hnothing, -⟩ := hallowed.resolve_right fun h => h
    intro q hq
    rw [Memory.created, Inventory.get?_put] at hq
    split at hq
    next hid => exact .inr (.inl (congrArg Loose.untagged hid))
    next hid =>
      have hold : ⟨.create r, .ok id⟩ ∈ log := by
        rcases List.mem_append.1 hmem with hmem | hmem
        · exact hmem
        · cases List.mem_singleton.1 hmem
          exact absurd rfl hid
      rcases h r id hold q hq with hcarries | hloose | hloose
      · exact .inl hcarries
      · cases hnothing.symm.trans hloose
      · cases hnothing.symm.trans hloose
  | @destroyed j p hp href =>
    intro q hq
    obtain ⟨hne, hq⟩ := Inventory.get?_of_get?_remove hq
    exact (h r id (hold fun _ _ h => by cases h) q hq).imp_left fun hcarries =>
      Inventory.carries_remove.2 ⟨hne, hcarries⟩
  | @tagged j tag' p hp =>
    obtain ⟨hj, rfl⟩ := hallowed.resolve_right fun h => h
    intro q hq
    refine .inl (Inventory.carries_attach.2 ?_)
    rcases h r id (hold fun _ _ h => by cases h) q hq with hcarries | hid | hid
    · exact .inr hcarries
    · cases hj.symm.trans hid
      exact .inl ⟨rfl, rfl⟩
    · cases hj.symm.trans hid

end Labelled

structure Proceeds (fresh : Nat → Identifier) (l : Layout) (log : List Exchange)
    (s : Schedule Memory Unit) (c : Course) : Prop where
  alone : s.tasks.length = 1
  program : ∃ p, s.program? 0 = some p ∧
    p.Meets (.interrupting l.service.tag) Reconciliation.Heeds c
  halted : c.halted = true → s.isCanceled 0 = true
  labelled : Labelled l.service.tag log c s.provider

namespace Proceeds

variable {l : Layout} {s : Schedule Memory Unit} {q : Request} {next : q.Reply → Program Unit}

inductive Moved (fresh : Nat → Identifier) (l : Layout) (log : List Exchange)
    (s : Schedule Memory Unit) (c : Course) (m : Schedule.Move) : Prop
  | idle (hx : s.exchange? (Memory.provider fresh) m = none)
      (hp : (s.move (Memory.provider fresh) m).program? 0 = s.program? 0)
      (h : Proceeds fresh l log (s.move (Memory.provider fresh) m) c)
  | replied {q : Request} {next : q.Reply → Program Unit} (reply : q.Reply)
      (hp : s.program? 0 = some (ask q next)) (hq : c.Allows l.service.tag q)
      (hears : c.halted = true → q.Hears true reply)
      (hx : s.exchange? (Memory.provider fresh) m = q.exchange? reply)
      (h : Proceeds fresh l (log ++ (q.exchange? reply).toList)
        (s.move (Memory.provider fresh) m) (c.next (s.isCanceled 0) q reply))

theorem halted_of_next {canceled : Bool} {reply : q.Reply}
    (h : (c.next canceled q reply).halted = true) : c.halted = true ∨ canceled = true := by
  cases q with
  | call call =>
    cases call with
    | create r =>
      cases reply <;> simpa [Course.next, Course.halt] using h
    | destroy kind id => simpa [Course.next, Course.halt] using h
    | tag id tag =>
      cases reply <;> exact .inl h
    | get kind id | list tag => exact .inl h
  | sleep d => simpa [Course.next, Course.halt] using h
  | _ => exact .inl h

theorem labelled_step {reply : q.Reply} {canceled : Bool} {m : Schedule.Move}
    (h : Proceeds fresh l log s c) (hq : c.Allows l.service.tag q)
    (hx : s.exchange? (Memory.provider fresh) m = q.exchange? reply) :
    Labelled l.service.tag (log ++ (q.exchange? reply).toList) (c.next canceled q reply)
      (s.move (Memory.provider fresh) m).provider := by
  have hcall (call : Call) (a : call.Answer)
      (hallowed : c.Allows l.service.tag (.call call) ∨ call.Looks)
      (hx : s.exchange? (Memory.provider fresh) m = some ⟨call, a⟩) :
      Labelled l.service.tag (log ++ [⟨call, a⟩]) (c.next canceled (.call call) a)
        (s.move (Memory.provider fresh) m).provider := by
    obtain rfl : a = ((Memory.provider fresh).answer call s.provider).1 :=
      Schedule.answer_of_exchange? hx
    rw [Schedule.provider_move, hx]
    exact h.labelled.answer hallowed (s.provider.effect fresh call)
  have hsame (hx : s.exchange? (Memory.provider fresh) m = none) :
      Labelled l.service.tag (log ++ []) c (s.move (Memory.provider fresh) m).provider := by
    rw [Schedule.provider_move, hx, List.append_nil]
    exact h.labelled
  cases q with
  | call call => exact hcall call reply (.inl hq) hx
  | watch call =>
    cases reply with
    | none => exact hsame hx
    | some a =>
      have hlabelled := hcall call a (.inr hq.2) hx
      cases call with
      | get kind id | list tag => exact hlabelled
      | create r | destroy kind id | tag id tag => exact hq.2.elim
  | sleep d => exact hsame hx
  | _ => exact hsame hx

theorem move (h : Proceeds fresh l log s c) (m : Schedule.Move) : Moved fresh l log s c m := by
  obtain ⟨p, hp, hmeets⟩ := h.program
  have hlength : (s.move (Memory.provider fresh) m).tasks.length = 1 :=
    (Schedule.length_move _ s m).trans h.alone
  -- Nothing else happens to the only task, but that it is canceled.
  have hidle (hx : s.exchange? (Memory.provider fresh) m = none)
      (hprogram : (s.move (Memory.provider fresh) m).program? 0 = s.program? 0) :
      Moved fresh l log s c m := by
    refine .idle hx hprogram ⟨hlength, ⟨p, hprogram.trans hp, hmeets⟩, ?_, ?_⟩
    · exact fun hhalted => Schedule.isCanceled_move m (h.halted hhalted)
    · rw [Schedule.provider_move, hx]
      exact h.labelled
  cases m with
  | cancel i => exact hidle rfl (Schedule.program?_cancel s i 0)
  | elapse milliseconds => exact hidle rfl rfl
  | step i =>
    cases i with
    | succ i =>
      have hnone : s.tasks[i + 1]? = none := List.getElem?_eq_none (by rw [h.alone]; omega)
      refine hidle ?_ ?_
      · rw [Schedule.exchange?, Schedule.program?, hnone]
        rfl
      · rw [Schedule.move, Schedule.step, hnone]
    | zero =>
      obtain ⟨t, ht, rfl⟩ := Schedule.exists_task hp
      cases hprogram : t.program with
      | done a =>
        refine hidle ?_ (by rw [Schedule.move, Schedule.step_of_done ht hprogram])
        rw [Schedule.exchange?, hp, hprogram]
      | fail failure =>
        refine hidle ?_ (by rw [Schedule.move, Schedule.step_of_fail ht hprogram])
        rw [Schedule.exchange?, hp, hprogram]
      | ask q next =>
        rw [hprogram] at hp hmeets
        obtain ⟨hq, hnext⟩ := hmeets c rfl
        rcases Schedule.exchange_step (Memory.provider fresh) hp with
          ⟨hsame, hx⟩ | ⟨reply, hreply, hx, hears⟩
        · exact hidle hx (hsame.trans hp.symm)
        · have hears (hhalted : c.halted = true) : q.Hears true reply := by
            rw [h.halted hhalted] at hears
            exact hears
          refine .replied reply hp hq hears hx ⟨hlength, ⟨_, hreply, ?_⟩, ?_, h.labelled_step hq hx⟩
          · exact hnext reply _ ⟨⟨_, rfl⟩, hears⟩
          · refine fun hhalted => (Schedule.isCanceled_step 0 0).trans ?_
            exact (halted_of_next hhalted).elim h.halted id

theorem play (h : Proceeds fresh l log s c) (moves : List Schedule.Move) :
    ∃ c', Proceeds fresh l (log ++ s.exchanges (Memory.provider fresh) moves)
      (s.play (Memory.provider fresh) moves) c' ∧ (c.halted = true → c'.halted = true) := by
  induction moves generalizing s c log with
  | nil =>
    rw [Schedule.exchanges, List.append_nil]
    exact ⟨c, h, id⟩
  | cons m moves ih =>
    rw [Schedule.exchanges, ← List.append_assoc]
    rcases h.move m with ⟨hx, hp, h⟩ | ⟨reply, hp, hq, hears, hx, h⟩
    · rw [hx, Option.toList_none, List.append_nil]
      exact ih h
    · rw [hx]
      obtain ⟨c', h', hc'⟩ := ih h
      refine ⟨c', h', fun hc => hc' ?_⟩
      rcases Course.next_of_halted (s.isCanceled 0) hc hq (hears hc) with
        ⟨-, -, hc⟩ | ⟨-, -, -, -, hc, -⟩ <;> exact hc

/-- Nothing is asked for any more when nothing is left open. -/
theorem exchanges_eq_nil (h : Proceeds fresh l log s c) (hhalted : c.halted = true)
    (hloose : ∀ id, c.loose ≠ .untagged id) (moves : List Schedule.Move) :
    s.exchanges (Memory.provider fresh) moves = [] := by
  induction moves generalizing s c log with
  | nil => rfl
  | cons m moves ih =>
    rw [Schedule.exchanges]
    rcases h.move m with ⟨hx, hp, h⟩ | ⟨reply, hp, hq, hears, hx, h⟩
    · rw [hx]
      exact ih h hhalted hloose
    · rcases Course.next_of_halted (s.isCanceled 0) hhalted hq (hears hhalted) with
        ⟨hnone, hsame, hhalted⟩ | ⟨id, a, hid, -⟩
      · rw [hx, hnone]
        exact ih h hhalted fun id => hsame ▸ hloose id
      · exact absurd hid (hloose id)

/-- An object that has been created before the halt is tagged still. -/
theorem exchanges_of_untagged {id : Identifier} (h : Proceeds fresh l log s c)
    (hhalted : c.halted = true) (hid : c.loose = .untagged id) (moves : List Schedule.Move) :
    s.exchanges (Memory.provider fresh) moves = [] ∨
      ∃ a, s.exchanges (Memory.provider fresh) moves = [⟨.tag id l.service.tag, a⟩] := by
  induction moves generalizing s c log with
  | nil => exact .inl rfl
  | cons m moves ih =>
    rw [Schedule.exchanges]
    rcases h.move m with ⟨hx, hp, h⟩ | ⟨reply, hp, hq, hears, hx, h⟩
    · rw [hx]
      exact ih h hhalted hid
    · rcases Course.next_of_halted (s.isCanceled 0) hhalted hq (hears hhalted) with
        ⟨hnone, hsame, hhalted⟩ | ⟨j, a, hj, htag, hhalted, hloose⟩
      · rw [hx, hnone]
        exact ih h hhalted (hsame.trans hid)
      · cases hid.symm.trans hj
        rw [hx, htag, h.exchanges_eq_nil hhalted hloose]
        exact .inr ⟨a, rfl⟩

/-- What is asked for by a reconciliation that has been canceled in a request that halts it. -/
theorem exchanges_of_halts (h : Proceeds fresh l log s c) (hcanceled : s.isCanceled 0 = true)
    (hp : s.program? 0 = some (ask q next)) (hhalts : q.Halts) (moves : List Schedule.Move) :
    Parting l.service.tag q (s.exchanges (Memory.provider fresh) moves) := by
  induction moves generalizing s c log with
  | nil => exact .nothing
  | cons m moves ih =>
    rw [Schedule.exchanges]
    rcases h.move m with ⟨hx, hsame, h⟩ | @⟨q', next', reply, hp', hq, hears, hx, h⟩
    · rw [hx]
      exact ih h (Schedule.isCanceled_move m hcanceled) (hsame.trans hp)
    · cases hp.symm.trans hp'
      rw [hx]
      rw [hcanceled] at h
      cases q with
      | call call =>
        cases call with
        | create r =>
          cases reply with
          | ok id =>
            rcases h.exchanges_of_untagged (Bool.or_true _) rfl moves with hnil | ⟨a, htag⟩
            · rw [hnil]
              exact .created (.ok id)
            · rw [htag]
              exact .tagged a
          | error refusal =>
            rw [h.exchanges_eq_nil (Bool.or_true _) (fun id => Course.ne_untagged hq.1 id)]
            exact .created (.error refusal)
        | destroy kind id =>
          rw [h.exchanges_eq_nil (Bool.or_true _) (fun id => Course.ne_untagged hq.1 id)]
          exact .destroyed reply
        | get | list | tag => exact hhalts.elim
      | sleep d =>
        rw [h.exchanges_eq_nil (Bool.or_true _) (fun id => Course.ne_untagged hq id)]
        exact .nothing
      | _ => exact hhalts.elim

/-- What a reconciliation that has come to an end has come to. -/
theorem heeds_of_ends {out : Except Failure Unit} {after : Option Snapshot}
    (h : Proceeds fresh l log s c) (hout : s.Ends out after) : Reconciliation.Heeds out c ∧
      ∀ (q : Request) (next : q.Reply → Program Unit), s.program? 0 ≠ some (ask q next) := by
  obtain ⟨t, ht, hresult, -⟩ := hout
  obtain ⟨p, hp, hmeets⟩ := h.program
  obtain rfl : t.program = p := by
    rw [Schedule.program?, ht] at hp
    exact Option.some.inj hp
  rw [Task.result?] at hresult
  cases hprogram : t.program with
  | done a | fail failure =>
    rw [hprogram] at hmeets hp hresult
    cases hresult
    exact ⟨hmeets, fun q next hasks => by cases hp.symm.trans hasks⟩
  | ask q next =>
    rw [hprogram] at hresult
    cases hresult

/-- A reconciliation that has been canceled in a request that halts it is halted by the reply. -/
theorem play_of_halts (h : Proceeds fresh l log s c) (hcanceled : s.isCanceled 0 = true)
    (hp : s.program? 0 = some (ask q next)) (hhalts : q.Halts) (moves : List Schedule.Move) :
    ∃ c', Proceeds fresh l (log ++ s.exchanges (Memory.provider fresh) moves)
        (s.play (Memory.provider fresh) moves) c' ∧ (c'.halted = true ∨
      (s.play (Memory.provider fresh) moves).program? 0 = some (ask q next)) := by
  induction moves generalizing s c log with
  | nil =>
    rw [Schedule.exchanges, List.append_nil]
    exact ⟨c, h, .inr hp⟩
  | cons m moves ih =>
    rw [Schedule.exchanges, ← List.append_assoc]
    rcases h.move m with ⟨hx, hsame, h⟩ | @⟨q', next', reply, hp', hq, hears, hx, h⟩
    · rw [hx, Option.toList_none, List.append_nil]
      exact ih h (Schedule.isCanceled_move m hcanceled) (hsame.trans hp)
    · cases hp.symm.trans hp'
      rw [hx]
      have hc : (c.next (s.isCanceled 0) q reply).halted = true := by
        rw [hcanceled]
        exact Course.halted_next hhalts
      obtain ⟨c', h', hc'⟩ := h.play moves
      exact ⟨c', h', .inl (hc' hc)⟩

end Proceeds

namespace Reconciliation

variable {l : Layout} {s : Schedule Memory Unit} {q : Request} {next : q.Reply → Program Unit}
  {before : Option Snapshot}

open Schedule

theorem proceeds_of_starts (hs : s.Starts (direct l).reconcile before) :
    Proceeds fresh l [] s ⟨.nothing, false⟩ := by
  obtain ⟨canceled, ht⟩ := hs
  refine ⟨by rw [ht]; rfl, ⟨(direct l).reconcile, ?_, reconcile_meets_heeds rfl⟩, nofun, ?_⟩
  · rw [program?, ht]
    rfl
  · intro r id hmem
    cases hmem

/-- A reconciliation that is halted comes to an end, and fails. -/
theorem exists_failure (h : Proceeds fresh l log s c) (hcanceled : s.isCanceled 0 = true)
    (hp : s.program? 0 = some (ask q next)) (hhalts : q.Halts) {moves : Nat → Move}
    (hfair : Fair 1 moves) : ∃ n failure, ∀ k, n ≤ k →
      (s.after (Memory.provider fresh) moves k).program? 0 = some (fail failure) := by
  rw [← h.alone] at hfair
  obtain ⟨n, hstill⟩ := exists_still (Memory.provider fresh) s hfair
  rw [h.alone] at hstill
  obtain ⟨c', h', hc'⟩ := h.play_of_halts hcanceled hp hhalts ((List.range n).map moves)
  obtain ⟨p, hp', hmeets⟩ := h'.program
  have hend : ∃ failure, p = fail failure := by
    cases p with
    | done a =>
      rcases hc' with hhalted | hsame
      · exact absurd rfl (hmeets.2 hhalted)
      · cases hp'.symm.trans hsame
    | fail failure => exact ⟨failure, rfl⟩
    | ask q' next' =>
      have hstill := hstill n le_rfl
      obtain ⟨hq', -⟩ := hmeets c' rfl
      have hprompt := hstill.not_isPrompt Nat.one_pos hp'
      cases q' with
      | sleep d => exact (hstill.not_sleep Nat.one_pos hp').elim
      | watch call =>
        obtain ⟨k, -, hk⟩ := hstill.fair.steps 0 Nat.one_pos 0
        have hnone := hstill.no_reply Nat.one_pos hp' hk
        have hcanceled : (s.after (Memory.provider fresh) moves (n + k)).isCanceled 0 = true :=
          isCanceled_play _ hcanceled
        rw [handler_watch_of_canceled hcanceled] at hnone
        cases hnone
      | enter =>
        rcases hc' with hhalted | hsame
        · cases hhalted.symm.trans hq'
        · cases hp'.symm.trans hsame
          exact hhalts.elim
      | arrive | release => exact hq'.elim
      | _ => cases hprompt
  obtain ⟨failure, rfl⟩ := hend
  refine ⟨n, failure, fun k hk => ?_⟩
  obtain ⟨j, rfl⟩ := Nat.exists_eq_add_of_le hk
  exact ((hstill n le_rfl).stays j 0 Nat.one_pos).trans hp'

/-- A reconciliation that is canceled while the provider creates or destroys something for it, or while
it sleeps, calls the provider no more, but to tag what it has just created. It fails, whatever happens
next, and what it has created carries its tag as long as it is there, except for an object that the
failure names. -/
theorem cancels_safely (hs : s.Starts (direct l).reconcile before) (moves₁ : List Move)
    (hasks : (s.play (Memory.provider fresh) moves₁).program? 0 = some (ask q next))
    (hq : q.Halts) :
    let own := Memory.provider fresh
    let canceled := (s.play own moves₁).cancel 0
    (∀ moves₂, Parting l.service.tag q (canceled.exchanges own moves₂)) ∧
    (∀ moves₂ out after, (canceled.play own moves₂).Ends out after → out ≠ .ok () ∧
      ∀ r id, ⟨.create r, .ok id⟩ ∈ s.exchanges own (moves₁ ++ .cancel 0 :: moves₂) →
        ∀ r', (canceled.play own moves₂).provider.inventory.objects.get? id = some r' →
          (canceled.play own moves₂).provider.inventory.Carries l.service.tag id ∨
            ∃ reason, out = .error (.notTagged id reason)) ∧
    ∀ moves : Nat → Move, Fair 1 moves → ∃ n failure, ∀ k, n ≤ k →
      (canceled.after own moves k).program? 0 = some (fail failure) := by
  intro own canceled
  obtain ⟨c, h⟩ : ∃ c, Proceeds fresh l (s.exchanges own moves₁) canceled c := by
    have hstarts : Proceeds fresh l [] s ⟨.nothing, false⟩ := proceeds_of_starts hs
    obtain ⟨c, h, -⟩ := hstarts.play (moves₁ ++ [.cancel 0])
    rw [play_append, List.nil_append, exchanges_append] at h
    simp only [exchanges, exchange?, Option.toList_none, List.append_nil] at h
    exact ⟨c, h⟩
  have hasks' : canceled.program? 0 = some (ask q next) := (program?_cancel _ 0 0).trans hasks
  have hcanceled : canceled.isCanceled 0 = true := by
    obtain ⟨t, ht, -⟩ := exists_task hasks
    exact isCanceled_cancel ht
  refine ⟨h.exchanges_of_halts hcanceled hasks' hq, ?_, fun moves hfair =>
    exists_failure h hcanceled hasks' hq hfair⟩
  intro moves₂ out after hout
  obtain ⟨c', h', hc'⟩ := h.play_of_halts hcanceled hasks' hq moves₂
  obtain ⟨⟨haccounted, hok⟩, hended⟩ := h'.heeds_of_ends hout
  have hhalted : c'.halted = true := hc'.resolve_right (hended q next)
  refine ⟨hok hhalted, fun r id hmem r' hr' => ?_⟩
  have hmem : ⟨.create r, .ok id⟩ ∈ s.exchanges own moves₁ ++ canceled.exchanges own moves₂ := by
    rw [exchanges_append] at hmem
    exact hmem
  refine (h'.labelled r id hmem r' hr').imp_right fun hloose => ?_
  rcases haccounted with hnothing | ⟨j, reason, hlost, rfl⟩
  · rcases hloose with hid | hid <;> cases hnothing.symm.trans hid
  · rcases hloose with hid | hid
    · cases hlost.symm.trans hid
    · cases hlost.symm.trans hid
      exact ⟨reason, rfl⟩

end Reconciliation

def Program.creates? : Program α → Option Resource
  | ask (.call (.create r)) _ => some r
  | _ => none

theorem Program.exists_ask_of_creates? {p : Program α} {r : Resource} (h : p.creates? = some r) :
    ∃ next, p = ask (.call (.create r)) next := by
  cases p with
  | done a | fail failure => cases h
  | ask q next =>
    cases q with
    | call call =>
      cases call with
      | create r =>
        cases h
        exact ⟨next, rfl⟩
      | _ => cases h
    | _ => cases h

namespace Sample

def creating : Schedule Memory Unit :=
  before.play (Memory.provider .scattered) (List.replicate 18 (.step 0))

end Sample

theorem sample_cancels_safely :
    Sample.before.Starts (Reconciliation.direct Sample.layout).reconcile none ∧
    ∃ next, Sample.creating.program? 0 =
        some (ask (.call (.create (.backend (Sample.layout.backend "http")))) next) ∧
      (Request.call (.create (.backend (Sample.layout.backend "http")))).Halts ∧
      ((Sample.creating.cancel 0).play (Memory.provider .scattered)
        (List.replicate 4 (.step 0))).Ends (.error .canceled) none ∧
      Parting (.ofService "1") (.call (.create (.backend (Sample.layout.backend "http"))))
        ((Sample.creating.cancel 0).exchanges (Memory.provider .scattered)
          (List.replicate 4 (.step 0))) := by
  have hs : Sample.before.Starts (Reconciliation.direct Sample.layout).reconcile none :=
    ⟨false, rfl⟩
  have hcreates : (Sample.creating.program? 0).bind Program.creates? =
      some (.backend (Sample.layout.backend "http")) := by decide +kernel
  obtain ⟨p, hp, hcreates⟩ := Option.bind_eq_some_iff.1 hcreates
  obtain ⟨next, rfl⟩ := Program.exists_ask_of_creates? hcreates
  obtain ⟨hparting, -⟩ := Reconciliation.cancels_safely hs (List.replicate 18 (.step 0)) hp trivial
  exact ⟨hs, next, hp, trivial, by decide +kernel, hparting _⟩

end BalancerSync
