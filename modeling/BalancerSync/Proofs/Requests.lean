import BalancerSync.Engine.Reconciliation
import BalancerSync.Proofs.World

namespace BalancerSync

namespace Program

variable {σ α β : Type} {P Q : Request → Prop} {p : Program α} {e : Environment σ} {s : σ}

def Makes (P : Request → Prop) : Program α → Prop
  | done _ => True
  | fail _ => True
  | ask q next => P q ∧ ∀ reply, (next reply).Makes P

def Returning (post : α → σ → Prop) : Except Failure α → σ → Prop
  | .ok a, s => post a s
  | .error _, _ => True

namespace Makes

theorem mono (h : p.Makes P) (hPQ : ∀ q, P q → Q q) : p.Makes Q := by
  induction p with
  | done a => trivial
  | fail failure => trivial
  | ask q next ih => exact ⟨hPQ q h.1, fun reply => ih reply (h.2 reply)⟩

theorem bind {f : α → Program β} (h : p.Makes P) (hf : ∀ a, (f a).Makes P) : (p >>= f).Makes P := by
  induction p with
  | done a => exact hf a
  | fail failure => trivial
  | ask q next ih => exact ⟨h.1, fun reply => ih reply (h.2 reply)⟩

theorem attempt {f : Except Failure α → Program β} (h : p.Makes P) (hf : ∀ r, (f r).Makes P) :
    (p.attempt >>= f).Makes P := by
  induction p with
  | done a => exact hf _
  | fail failure => exact hf _
  | ask q next ih => exact ⟨h.1, fun reply => ih reply (h.2 reply)⟩

theorem request {q : Request} {f : q.Reply → Program α} (hq : P q) (hf : ∀ reply, (f reply).Makes P) :
    (Program.request q >>= f).Makes P := ⟨hq, hf⟩

theorem ofExcept (r : Except Failure α) : (ofExcept r).Makes P := by cases r <;> trivial

theorem checkpoint (hP : P .isCanceled) : checkpoint.Makes P :=
  request hP fun canceled => by cases canceled <;> trivial

/-- What every request of a program keeps is kept by the program, on top of all that it comes to. -/
theorem keep {I : σ → Prop} {post : Except Failure α → σ → Prop} (h : p.Makes P)
    (hp : p.Meets e post s) (hs : I s) (hrely : ∀ s s', I s → e.rely s s' → I s')
    (hreplies : ∀ q s reply s', P q → I s → e.allows q s → e.replies q s reply s' → I s') :
    p.Meets e (fun r s => post r s ∧ I s) s := by
  induction p generalizing s with
  | done a => exact ⟨hp, hs⟩
  | fail failure => exact ⟨hp, hs⟩
  | ask q next ih =>
    intro s' hs'
    obtain ⟨hallows, hnext⟩ := hp s' hs'
    exact ⟨hallows, fun reply s'' hreply => ih reply (h.2 reply) (hnext reply s'' hreply)
      (hreplies q s' reply s'' h.1 (hrely s s' hs hs') hallows hreply)⟩

/-- A program all of whose requests are allowed comes to something. -/
theorem meets {I : σ → Prop} (h : p.Makes P) (hs : I s) (hrely : ∀ s s', I s → e.rely s s' → I s')
    (hallows : ∀ q s, P q → I s → e.allows q s)
    (hreplies : ∀ q s reply s', P q → I s → e.replies q s reply s' → I s') :
    p.Meets e (fun _ s => I s) s := by
  induction p generalizing s with
  | done a => exact hs
  | fail failure => exact hs
  | ask q next ih =>
    intro s' hs'
    have hI := hrely s s' hs hs'
    exact ⟨hallows q s' h.1 hI, fun reply s'' hreply =>
      ih reply (h.2 reply) (hreplies q s' reply s'' h.1 hI hreply)⟩

end Makes

end Program

def Call.Looks : Call → Prop
  | .get _ _ | .list _ => True
  | _ => False

namespace Request

def Looks : Request → Prop
  | .call c | .watch c => c.Looks
  | .isCanceled | .sleep _ | .draw | .latest | .remember _ => True
  | _ => False

def Yields : Request → Prop
  | .watch c => c.Looks
  | .isCanceled | .draw | .latest | .remember _ => True
  | _ => False

def Destroys : Request → Prop
  | .call (.destroy _ _) => True
  | .isCanceled => True
  | _ => False

def Fetches : Request → Prop
  | .watch c => c.Looks
  | .isCanceled => True
  | _ => False

def Polls : Request → Prop
  | .call c => c.Looks
  | .isCanceled | .sleep _ | .draw => True
  | _ => False

def Creates : Request → Prop
  | .call (.destroy _ _) => False
  | .call _ | .isCanceled | .sleep _ | .draw | .enter | .exit => True
  | _ => False

def Retains : Request → Prop
  | .remember _ => False
  | _ => True

def Spares : Request → Prop
  | .call (.destroy _ _) | .watch (.destroy _ _) => False
  | _ => True

theorem spares_watch_iff {c : Call} : Spares (.watch c) ↔ Spares (.call c) := by cases c <;> rfl

theorem Yields.looks {q : Request} (h : q.Yields) : q.Looks := by
  cases q with
  | watch c => exact h
  | isCanceled | draw | latest | remember => trivial
  | _ => exact h.elim

theorem Fetches.yields {q : Request} (h : q.Fetches) : q.Yields := by
  cases q with
  | watch c => exact h
  | isCanceled => trivial
  | _ => exact h.elim

theorem Polls.looks {q : Request} (h : q.Polls) : q.Looks := by
  cases q with
  | call c => exact h
  | isCanceled | sleep | draw => trivial
  | _ => exact h.elim

theorem Polls.creates {q : Request} (h : q.Polls) : q.Creates := by
  cases q with
  | call c => cases c <;> trivial
  | isCanceled | sleep | draw => trivial
  | _ => exact h.elim

theorem Looks.spares {q : Request} (h : q.Looks) : q.Spares := by
  cases q with
  | call c | watch c => cases c <;> trivial
  | _ => trivial

theorem Creates.spares {q : Request} (h : q.Creates) : q.Spares := by
  cases q with
  | call c => cases c <;> trivial
  | watch c => exact h.elim
  | _ => trivial

theorem Fetches.retains {q : Request} (h : q.Fetches) : q.Retains := by
  cases q <;> trivial

theorem Creates.retains {q : Request} (h : q.Creates) : q.Retains := by
  cases q <;> trivial

theorem Destroys.retains {q : Request} (h : q.Destroys) : q.Retains := by
  cases q <;> trivial

end Request

namespace Engine

open Program

variable {tag : Tag} {b : Backoff}

theorem fetchListed_fetches (listed : List Listed) : (fetchListed listed).Makes Request.Fetches := by
  induction listed with
  | nil => trivial
  | cons entry rest ih =>
    rw [fetchListed]
    split
    · exact ih
    · refine .request trivial fun reply => ?_
      split
      · trivial
      · exact ih
      · trivial
      · exact .bind ih fun _ => trivial

theorem fetchListed_looks (listed : List Listed) : (fetchListed listed).Makes Request.Looks :=
  (fetchListed_fetches listed).mono fun _ h => h.yields.looks

theorem fetch_fetches (tag : Tag) : (fetch tag).Makes Request.Fetches := by
  refine .bind (.checkpoint trivial) fun _ => .request trivial fun reply => ?_
  split
  · trivial
  · trivial
  · trivial
  · exact .bind (fetchListed_fetches _) fun _ => trivial

theorem fetch_yields (tag : Tag) : (fetch tag).Makes Request.Yields :=
  (fetch_fetches tag).mono fun _ => Request.Fetches.yields

theorem fetch_looks (tag : Tag) : (fetch tag).Makes Request.Looks :=
  (fetch_yields tag).mono fun _ => Request.Yields.looks

theorem check_yields {l : Layout} : (Reconciliation.direct l).check.Makes Request.Yields :=
  .bind (.bind (fetch_yields l.service.tag) fun _ => trivial) fun _ =>
    .request trivial fun _ => .ofExcept _

theorem check_looks {l : Layout} : (Reconciliation.direct l).check.Makes Request.Looks :=
  check_yields.mono fun _ => Request.Yields.looks

theorem progressing_yields : Reconciliation.progressing.Makes Request.Yields :=
  ⟨trivial, fun _ => trivial⟩

theorem progressing_looks : Reconciliation.progressing.Makes Request.Looks :=
  progressing_yields.mono fun _ => Request.Yields.looks

theorem pollOne_polls (t : Tracked) : (pollOne t).Makes Request.Polls := by
  refine .bind (.checkpoint trivial) fun _ => .request trivial fun reply => ?_
  split <;> trivial

theorem pollAll_polls (first : Bool) (tracked : List Tracked) :
    (pollAll first tracked).Makes Request.Polls := by
  induction tracked with
  | nil => trivial
  | cons t rest ih =>
    rw [pollAll]
    split
    · exact .bind ih fun _ => trivial
    · exact .bind (pollOne_polls t) fun _ => .bind ih fun _ => trivial

theorem pause_polls (b : Backoff) (current : Duration) : (pause b current).Makes Request.Polls := by
  rw [pause]
  have hsleep (waiting next : Duration) : (do
      if ← request (.sleep waiting) then fail .canceled
      return next : Program Duration).Makes Request.Polls :=
    ⟨trivial, fun canceled => by cases canceled <;> trivial⟩
  split
  · exact .request trivial fun draw => hsleep _ _
  · exact hsleep _ _

theorem pollUntilReady_polls (pauses : Nat) (current : Duration) (first : Bool)
    (tracked : List Tracked) :
    (pollUntilReady b pauses current first tracked).Makes Request.Polls := by
  induction pauses generalizing current first tracked with
  | zero =>
    refine .bind (pollAll_polls first tracked) fun tracked => .bind (.ofExcept _) fun ids => ?_
    split <;> trivial
  | succ pauses ih =>
    refine .bind (pollAll_polls first tracked) fun tracked => .bind (.ofExcept _) fun ids => ?_
    split
    · trivial
    · exact .bind (pause_polls b current) fun next => ih next false tracked

theorem settle_polls (b : Backoff) (rs : List Resource) : (settle b rs).Makes Request.Polls := by
  refine .attempt (.bind (.ofExcept _) fun _ => pollUntilReady_polls _ _ _ _) fun out => ?_
  split <;> trivial

theorem settle_looks (b : Backoff) (rs : List Resource) : (settle b rs).Makes Request.Looks :=
  (settle_polls b rs).mono fun _ => Request.Polls.looks

theorem destroyPass_destroys (refused queue : List Resource) :
    (destroyPass refused queue).Makes Request.Destroys := by
  induction queue generalizing refused with
  | nil => trivial
  | cons r rest ih =>
    rw [destroyPass]
    refine .bind (.checkpoint trivial) fun _ => ?_
    split
    · trivial
    · refine .request trivial fun reply => ?_
      split
      · exact ih refused
      · exact ih refused
      · trivial
      · exact ih _

theorem destroyPasses_destroys (passes : Nat) (pending : List Resource) :
    (destroyPasses passes pending).Makes Request.Destroys := by
  induction passes generalizing pending with
  | zero => trivial
  | succ passes ih =>
    refine .bind (destroyPass_destroys [] pending) fun refused => ?_
    split
    · trivial
    · split
      · trivial
      · exact ih refused

theorem destroyAll_destroys (rs : List Resource) : (destroyAll rs).Makes Request.Destroys :=
  destroyPasses_destroys _ _

theorem createTagged_creates (tag : Tag) (r : Resource) :
    (createTagged tag r).Makes Request.Creates := by
  refine .request trivial fun _ => .request trivial fun created => ?_
  cases created with
  | error refusal => exact .request trivial fun _ => trivial
  | ok id =>
    refine .request trivial fun tagged => .request trivial fun _ => ?_
    cases tagged <;> trivial

theorem createEach_creates (tag : Tag) (rs : List Resource) :
    (createEach tag rs).Makes Request.Creates := by
  induction rs with
  | nil => trivial
  | cons r rs ih =>
    exact (Makes.checkpoint trivial).bind fun _ =>
      (createTagged_creates tag r).bind fun _ => ih.bind fun _ => trivial

theorem createAll_creates (tag : Tag) (b : Backoff) (rs : List Resource) :
    (createAll tag b rs).Makes Request.Creates :=
  (createEach_creates tag _).bind fun created =>
    (settle_polls b created).mono fun _ => Request.Polls.creates

theorem createAll_spares (tag : Tag) (b : Backoff) (rs : List Resource) :
    (createAll tag b rs).Makes Request.Spares :=
  (createAll_creates tag b rs).mono fun _ => Request.Creates.spares

end Engine

end BalancerSync
