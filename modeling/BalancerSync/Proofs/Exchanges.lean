import BalancerSync.Proofs.Together

namespace BalancerSync

/-- A call and its answer. -/
abbrev Exchange : Type := (c : Call) × c.Answer

open Program

def Request.exchange? : (q : Request) → q.Reply → Option Exchange
  | .call c, answer => some ⟨c, answer⟩
  | .watch c, some answer => some ⟨c, answer⟩
  | _, _ => none

def Request.Hears (canceled : Bool) : (q : Request) → q.Reply → Prop
  | .isCanceled, reply => reply = canceled
  | .watch _, reply => canceled = true → reply = none
  | _, _ => True

namespace Schedule

variable {σ α : Type} {own : Provider σ} {s : Schedule σ α} {t : Task α} {i : Nat}
  {q : Request}

/-- The call that comes of a request. One that is watched is not made by a task that is canceled. -/
def made (s : Schedule σ α) (i : Nat) : Request → Option Call
  | .call c => some c
  | .watch c => if s.isCanceled i || s.holds c then none else some c
  | _ => none

def exchange? (own : Provider σ) (s : Schedule σ α) : Move → Option Exchange
  | .step i =>
    match s.program? i with
    | some (.ask q _) => (s.made i q).map fun c => ⟨c, (own.answer c s.provider).1⟩
    | _ => none
  | .cancel _ | .elapse _ => none

/-- The calls of a history. -/
def exchanges (own : Provider σ) : Schedule σ α → List Move → List Exchange
  | _, [] => []
  | s, m :: moves => (s.exchange? own m).toList ++ (s.move own m).exchanges own moves

theorem play_append (s : Schedule σ α) (moves moves' : List Move) :
    s.play own (moves ++ moves') = (s.play own moves).play own moves' := List.foldl_append

theorem exchanges_append (moves moves' : List Move) :
    s.exchanges own (moves ++ moves') =
      s.exchanges own moves ++ (s.play own moves).exchanges own moves' := by
  induction moves generalizing s with
  | nil => rfl
  | cons m moves ih =>
    rw [List.cons_append, exchanges, ih, exchanges, List.append_assoc]
    rfl

theorem exchange?_step {next : q.Reply → Program α} (ht : s.tasks[i]? = some t)
    (hp : t.program = ask q next) : s.exchange? own (.step i) =
      (s.made i q).map fun c => ⟨c, (own.answer c s.provider).1⟩ := by
  rw [exchange?, program?_eq ht, hp]

theorem answer_of_exchange? {m : Move} {x : Exchange} (h : s.exchange? own m = some x) :
    x.2 = (own.answer x.1 s.provider).1 := by
  cases m with
  | cancel i | elapse milliseconds => cases h
  | step i =>
    rw [exchange?] at h
    split at h
    · obtain ⟨c, -, rfl⟩ := Option.map_eq_some_iff.1 h
      rfl
    · cases h

def provider? (own : Provider σ) (provider : σ) : Option Call → σ
  | none => provider
  | some c => (own.answer c provider).2

theorem provider_handler (own : Provider σ) (i : Nat) (q : Request) (s : Schedule σ α) :
    (handler own i q s).2.provider = provider? own s.provider (s.made i q) := by
  have h := handler_effect own i q s
  generalize handler own i q s = out at h ⊢
  cases h with
  | unseen c hc => rw [made, hc, Bool.true_or, if_pos rfl, provider?]
  | held c hc hh => rw [made, hh, Bool.or_true, if_pos rfl, provider?]
  | watch c hc hh =>
    rw [made, hc, hh]
    rfl
  | _ => rfl

theorem provider_program_step (i : Nat) (next : q.Reply → Program α) :
    ((ask q next).step (handler own i) s).2.provider = (handler own i q s).2.provider := by
  rw [Program.step]
  generalize handler own i q s = out
  obtain ⟨_ | reply, s'⟩ := out <;> rfl

/-- A provider changes by the calls that are made, and by nothing else. -/
theorem provider_move (own : Provider σ) (s : Schedule σ α) (m : Move) :
    (s.move own m).provider = provider? own s.provider ((s.exchange? own m).map (·.1)) := by
  cases m with
  | step i =>
    rw [move]
    cases ht : s.tasks[i]? with
    | none =>
      rw [step, ht, exchange?, program?, ht]
      rfl
    | some t =>
      cases hp : t.program with
      | done a =>
        rw [step_of_done ht hp, exchange?, program?_eq ht, hp]
        rfl
      | fail failure =>
        rw [step_of_fail ht hp, exchange?, program?_eq ht, hp]
        rfl
      | ask q next =>
        rw [exchange?_step ht hp, Option.map_map, step, ht]
        dsimp only
        rw [hp]
        refine (provider_program_step i next).trans ((provider_handler own i q s).trans ?_)
        cases s.made i q <;> rfl
  | cancel i =>
    rw [move, cancel]
    split <;> rfl
  | elapse milliseconds => rfl

theorem made_eq_none (h : (handler own i q s).1 = none) : s.made i q = none := by
  have heffect := handler_effect own i q s
  generalize handler own i q s = out at h heffect
  cases heffect with
  | call | watch | unseen => cases h
  | held c hc hh => rw [made, hh, Bool.or_true, if_pos rfl]
  | _ => rfl

theorem exchange?_of_reply {reply : q.Reply} (h : (handler own i q s).1 = some reply) :
    (s.made i q).map (fun c => (⟨c, (own.answer c s.provider).1⟩ : Exchange)) =
      q.exchange? reply ∧ q.Hears (s.isCanceled i) reply := by
  have heffect := handler_effect own i q s
  generalize handler own i q s = out at h heffect
  cases heffect with
  | call c =>
    cases h
    exact ⟨rfl, trivial⟩
  | unseen c hc =>
    cases h
    rw [made, hc, Bool.true_or, if_pos rfl]
    exact ⟨rfl, fun _ => rfl⟩
  | held => cases h
  | watch c hc hh =>
    cases h
    rw [made, hc, hh]
    exact ⟨rfl, nofun⟩
  | isCanceled =>
    cases h
    exact ⟨rfl, rfl⟩
  | _ => exact ⟨rfl, trivial⟩

theorem exchange_step (own : Provider σ) {next : q.Reply → Program α}
    (hp : s.program? i = some (ask q next)) :
    ((s.step own i).program? i = some (ask q next) ∧ s.exchange? own (.step i) = none) ∨
    ∃ reply, (s.step own i).program? i = some (next reply) ∧
      s.exchange? own (.step i) = q.exchange? reply ∧ q.Hears (s.isCanceled i) reply := by
  have hstep : (s.step own i).program? i = some ((ask q next).step (handler own i) s).1 := by
    rw [program?_step_self, hp]
    rfl
  rw [hstep, exchange?, hp, Program.step]
  rcases hreply : handler own i q s with ⟨_ | reply, s'⟩
  · exact .inl ⟨rfl, congrArg (Option.map _) (made_eq_none (congrArg Prod.fst hreply))⟩
  · exact .inr ⟨reply, rfl, exchange?_of_reply (congrArg Prod.fst hreply)⟩

theorem length_move (own : Provider σ) (s : Schedule σ α) (m : Move) :
    (s.move own m).tasks.length = s.tasks.length := by
  cases m with
  | step i =>
    rw [move, step]
    cases s.tasks[i]? with
    | none => rfl
    | some t =>
      obtain ⟨g, hg, -⟩ := tasks_program_step own i t.program s
      simp only [modifyTask]
      rw [List.length_modify, hg, List.length_modify]
  | cancel i => rw [move, tasks_cancel, List.length_modify]
  | elapse milliseconds => rfl

theorem program?_cancel (s : Schedule σ α) (i j : Nat) : (s.cancel i).program? j = s.program? j := by
  rw [program?, program?, tasks_cancel]
  by_cases hij : i = j
  · subst hij
    rw [List.getElem?_modify_eq]
    cases s.tasks[i]? <;> rfl
  · rw [List.getElem?_modify_ne _ _ hij]

theorem isCanceled_modifyTask {f : Task α → Task α} (hf : ∀ t, (f t).canceled = t.canceled)
    (j : Nat) : (s.modifyTask i f).isCanceled j = s.isCanceled j := by
  rw [isCanceled, isCanceled, modifyTask]
  dsimp only
  by_cases hij : i = j
  · subst hij
    rw [List.getElem?_modify_eq]
    cases s.tasks[i]? with
    | none => rfl
    | some t => exact hf t
  · rw [List.getElem?_modify_ne _ _ hij]

theorem isCanceled_handler (own : Provider σ) (i j : Nat) (q : Request) (s : Schedule σ α) :
    (handler own i q s).2.isCanceled j = s.isCanceled j := by
  have h := handler_effect own i q s
  generalize handler own i q s = out at h ⊢
  cases h with
  | sleep | remember | arrive | release => exact isCanceled_modifyTask (by exact fun _ => rfl) j
  | _ => rfl

theorem isCanceled_program_step (i j : Nat) (p : Program α) :
    (p.step (handler own i) s).2.isCanceled j = s.isCanceled j := by
  cases p with
  | done a => rfl
  | fail failure => rfl
  | ask q next =>
    have hcanceled := isCanceled_handler own i j q s
    rw [Program.step]
    generalize handler own i q s = out at hcanceled ⊢
    obtain ⟨_ | reply, s'⟩ := out <;> exact hcanceled

theorem isCanceled_step (i j : Nat) : (s.step own i).isCanceled j = s.isCanceled j := by
  rw [step]
  cases s.tasks[i]? with
  | none => rfl
  | some t =>
    exact (isCanceled_modifyTask (by exact fun _ => rfl) j).trans
      (isCanceled_program_step i j t.program)

theorem isCanceled_cancel (ht : s.tasks[i]? = some t) : (s.cancel i).isCanceled i = true := by
  rw [isCanceled, tasks_cancel, List.getElem?_modify_eq, ht]
  rfl

theorem isCanceled_move {j : Nat} (m : Move) (h : s.isCanceled j = true) :
    (s.move own m).isCanceled j = true := by
  cases m with
  | step i => exact (isCanceled_step i j).trans h
  | cancel i =>
    rw [move, isCanceled, tasks_cancel]
    by_cases hij : i = j
    · subst hij
      rw [List.getElem?_modify_eq]
      rw [isCanceled] at h
      cases ht : s.tasks[i]? with
      | none => rw [ht] at h; cases h
      | some t => rfl
    · rw [List.getElem?_modify_ne _ _ hij]
      exact h
  | elapse milliseconds => exact h

theorem isCanceled_play {j : Nat} (moves : List Move) (h : s.isCanceled j = true) :
    (s.play own moves).isCanceled j = true := by
  induction moves generalizing s with
  | nil => exact h
  | cons m moves ih => exact ih (isCanceled_move m h)

/-- A program that is canceled gets a reply to a call that it watches. -/
theorem handler_watch_of_canceled {i : Nat} {c : Call} (h : s.isCanceled i = true) :
    (handler own i (.watch c) s).1 = some none := by
  rw [handler, if_pos h]

end Schedule

end BalancerSync
