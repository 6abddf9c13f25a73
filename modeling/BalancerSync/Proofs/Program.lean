import BalancerSync.Program

namespace BalancerSync

/-- The surroundings of a program, as far as they are relied upon. They may do something of their
own before each request, they allow some requests only, and their replies are known up to a
relation. -/
structure Environment (σ : Type) where
  /-- What may happen before a request. -/
  rely : σ → σ → Prop
  allows : Request → σ → Prop
  replies : (q : Request) → σ → q.Reply → σ → Prop

namespace Program

variable {σ α β : Type} {e e' : Environment σ} {s : σ}
  {post post' mid : Except Failure α → σ → Prop} {p : Program α}

@[simp] theorem done_bind (a : α) (f : α → Program β) : done a >>= f = f a := rfl

@[simp] theorem fail_bind (failure : Failure) (f : α → Program β) :
    fail failure >>= f = fail failure := rfl

@[simp] theorem ask_bind (q : Request) (next : q.Reply → Program α) (f : α → Program β) :
    ask q next >>= f = ask q fun reply => next reply >>= f := rfl

theorem bind_assoc {γ : Type} (p : Program α) (f : α → Program β) (g : β → Program γ) :
    p >>= f >>= g = p >>= fun a => f a >>= g := by
  induction p with
  | done a => rfl
  | fail failure => rfl
  | ask q next ih =>
    simp only [ask_bind]
    congr 1
    funext reply
    exact ih reply

@[simp] theorem pure_eq_done (a : α) : (pure a : Program α) = done a := rfl

/-- Every request is allowed, and whatever the replies the program comes to what is asked for. -/
def Meets (e : Environment σ) (post : Except Failure α → σ → Prop) : Program α → σ → Prop
  | done a, s => post (.ok a) s
  | fail failure, s => post (.error failure) s
  | ask q next, s => ∀ s', e.rely s s' →
    e.allows q s' ∧ ∀ reply s'', e.replies q s' reply s'' → (next reply).Meets e post s''

theorem run_ask {h : Handler σ} {q : Request} {next : q.Reply → Program α} {reply : q.Reply}
    {s s' : σ} (hq : h q s = (some reply, s')) : (ask q next).run h s = (next reply).run h s' := by
  rw [run, run, advance, hq]

namespace Meets

theorem mono (h : p.Meets e post s) (hpost : ∀ r s, post r s → post' r s) :
    p.Meets e post' s := by
  induction p generalizing s with
  | done a => exact hpost _ s h
  | fail failure => exact hpost _ s h
  | ask q next ih =>
    intro s' hs'
    obtain ⟨hallows, hnext⟩ := h s' hs'
    exact ⟨hallows, fun reply s'' hreply => ih reply (hnext reply s'' hreply)⟩

theorem and (h : p.Meets e post s) (h' : p.Meets e post' s) :
    p.Meets e (fun r s => post r s ∧ post' r s) s := by
  induction p generalizing s with
  | done a => exact ⟨h, h'⟩
  | fail failure => exact ⟨h, h'⟩
  | ask q next ih =>
    intro s' hs'
    obtain ⟨hallows, hnext⟩ := h s' hs'
    obtain ⟨-, hnext'⟩ := h' s' hs'
    exact ⟨hallows, fun reply s'' hreply =>
      ih reply (hnext reply s'' hreply) (hnext' reply s'' hreply)⟩

theorem bind {f : α → Program β} {post : Except Failure β → σ → Prop} (h : p.Meets e mid s)
    (hok : ∀ a s, mid (.ok a) s → (f a).Meets e post s)
    (herror : ∀ failure s, mid (.error failure) s → post (.error failure) s) :
    (p >>= f).Meets e post s := by
  induction p generalizing s with
  | done a => exact hok a s h
  | fail failure => exact herror failure s h
  | ask q next ih =>
    intro s' hs'
    obtain ⟨hallows, hnext⟩ := h s' hs'
    exact ⟨hallows, fun reply s'' hreply => ih reply (hnext reply s'' hreply)⟩

theorem attempt {f : Except Failure α → Program β} {post : Except Failure β → σ → Prop}
    (h : p.Meets e mid s) (hf : ∀ r s, mid r s → (f r).Meets e post s) :
    (p.attempt >>= f).Meets e post s := by
  induction p generalizing s with
  | done a => exact hf _ s h
  | fail failure => exact hf _ s h
  | ask q next ih =>
    intro s' hs'
    obtain ⟨hallows, hnext⟩ := h s' hs'
    exact ⟨hallows, fun reply s'' hreply => ih reply (hnext reply s'' hreply)⟩

theorem ofExcept {r : Except Failure α} (h : post r s) : (ofExcept r).Meets e post s := by
  cases r <;> exact h

theorem request {q : Request} {f : q.Reply → Program α}
    (h : ∀ s', e.rely s s' → e.allows q s' ∧
      ∀ reply s'', e.replies q s' reply s'' → (f reply).Meets e post s'') :
    (Program.request q >>= f).Meets e post s := h

/-- What a program comes to in one environment it comes to in any other one that allows more and
does less, as long as something holds that the program keeps. -/
theorem transfer {I : σ → Prop} (h : p.Meets e post s) (hs : I s)
    (hrely : ∀ s s', I s → e'.rely s s' → e.rely s s' ∧ I s')
    (hallows : ∀ q s, I s → e.allows q s → e'.allows q s)
    (hreplies : ∀ q s reply s', I s → e.allows q s → e'.replies q s reply s' →
      e.replies q s reply s' ∧ I s') :
    p.Meets e' (fun r s => post r s ∧ I s) s := by
  induction p generalizing s with
  | done a => exact ⟨h, hs⟩
  | fail failure => exact ⟨h, hs⟩
  | ask q next ih =>
    intro s' hs'
    obtain ⟨hrelied, hI⟩ := hrely s s' hs hs'
    obtain ⟨hallowed, hnext⟩ := h s' hrelied
    refine ⟨hallows q s' hI hallowed, fun reply s'' hreply => ?_⟩
    obtain ⟨hreply, hI'⟩ := hreplies q s' reply s'' hI hallowed hreply
    exact ih reply (hnext reply s'' hreply) hI'

/-- What a program comes to in one environment holds as well in any other one that does less, as long
as something holds that the program keeps. -/
theorem and_of_does_less {I : σ → Prop} (h : p.Meets e post s) (h' : p.Meets e' post' s) (hs : I s)
    (hrely : ∀ s s', I s → e.rely s s' → e'.rely s s' ∧ I s')
    (hreplies : ∀ q s reply s', I s → e.allows q s → e.replies q s reply s' →
      e'.replies q s reply s' ∧ I s') :
    p.Meets e (fun r s => post r s ∧ post' r s) s := by
  induction p generalizing s with
  | done a => exact ⟨h, h'⟩
  | fail failure => exact ⟨h, h'⟩
  | ask q next ih =>
    intro s₁ hs₁
    obtain ⟨hrely₁, hI⟩ := hrely s s₁ hs hs₁
    obtain ⟨hallows, hnext⟩ := h s₁ hs₁
    refine ⟨hallows, fun reply s₂ hreply => ?_⟩
    obtain ⟨hreply', hI'⟩ := hreplies q s₁ reply s₂ hI hallows hreply
    exact ih reply (hnext reply s₂ hreply) ((h' s₁ hrely₁).2 reply s₂ hreply') hI'

/-- Nothing that may happen before the next request makes a difference. -/
theorem stable (h : p.Meets e post s) {s' : σ} (hs' : e.rely s s')
    (htrans : ∀ s s' s'', e.rely s s' → e.rely s' s'' → e.rely s s'')
    (hpost : ∀ r s s', post r s → e.rely s s' → post r s') : p.Meets e post s' := by
  cases p with
  | done a => exact hpost _ s s' h hs'
  | fail failure => exact hpost _ s s' h hs'
  | ask q next => exact fun s'' hs'' => h s'' (htrans s s' s'' hs' hs'')

/-- What a program comes to in an environment it does come to when it is run by a handler that answers
all requests as the environment tells. -/
theorem exists_run {τ : Type} {h : Handler τ} {R : σ → τ → Prop} {t : τ}
    (hidle : ∀ s, e.rely s s)
    (hR : ∀ q s t, R s t → e.allows q s → ∃ reply s', (h q t).1 = some reply ∧
      e.replies q s reply s' ∧ R s' (h q t).2)
    (hst : R s t) (hp : p.Meets e post s) :
    ∃ out t' s', p.run h t = (some out, t') ∧ R s' t' ∧ post out s' := by
  induction p generalizing s t with
  | done a => exact ⟨.ok a, t, s, rfl, hst, hp⟩
  | fail failure => exact ⟨.error failure, t, s, rfl, hst, hp⟩
  | ask q next ih =>
    obtain ⟨hq, hnext⟩ := hp s (hidle s)
    obtain ⟨reply, s', hreply, hreplies, hst'⟩ := hR q s t hst hq
    obtain ⟨out, t', s'', hrun, h'⟩ := ih reply hst' (hnext reply s' hreplies)
    exact ⟨out, t', s'', (run_ask (Prod.ext hreply rfl)).trans hrun, h'⟩

end Meets

end Program

end BalancerSync
