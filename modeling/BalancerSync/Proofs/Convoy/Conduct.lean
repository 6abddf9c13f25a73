import BalancerSync.Engine.Reconciliation
import BalancerSync.Proofs.Program

namespace BalancerSync

open Program

structure Role where
  /-- It is in the section for one program at a time. -/
  inside : Bool
  /-- It leads a round. -/
  leading : Bool
  /-- It takes no part in shared snapshots any more. -/
  left : Bool

namespace Role

def idle : Role := ⟨false, false, false⟩

def gone : Role := ⟨false, false, true⟩

end Role

/-- Surroundings that change nothing but the role of the program of a load balancer. -/
def conduct (lb : Identifier) : Environment Role where
  rely r r' := r' = r
  allows q r :=
    match q with
    | .sleep _ | .enter => r.inside = false ∧ r.leading = false
    | .exit => r.inside = true
    | .arrive lb' | .leave lb' => lb' = lb ∧ r = .idle
    | .release _ => r.leading = true
    | _ => True
  replies q r reply r' :=
    match q with
    | .enter => r' = { r with inside := true }
    | .exit => r' = { r with inside := false }
    | .arrive _ =>
      match reply with
      | .lead => r' = { r with leading := true }
      | .ended _ => r' = r
    | .release _ => r' = { r with leading := false }
    | .leave _ => r' = { r with left := true }
    | _ => r' = r

def Stays {α : Type} (lb : Identifier) (r : Role) (p : Program α) : Prop :=
  p.Meets (conduct lb) (fun _ r' => r' = r) r

namespace Stays

variable {α β : Type} {lb : Identifier} {r : Role} {p : Program α}

theorem done (a : α) : Stays lb r (.done a) := rfl

theorem fail (failure : Failure) : Stays lb r (.fail failure : Program α) := rfl

theorem bind {f : α → Program β} (h : Stays lb r p) (hf : ∀ a, Stays lb r (f a)) :
    Stays lb r (p >>= f) := by
  refine Meets.bind h ?_ fun _ _ h => h
  rintro a r rfl
  exact hf a

theorem attempt {f : Except Failure α → Program β} (h : Stays lb r p) (hf : ∀ out, Stays lb r (f out)) :
    Stays lb r (p.attempt >>= f) := by
  refine Meets.attempt h ?_
  rintro out r rfl
  exact hf out

theorem ofExcept (out : Except Failure α) : Stays lb r (.ofExcept out) := by
  cases out <;> rfl

/-- A request that makes no difference to the role. -/
theorem request {q : Request} {f : q.Reply → Program α} (ha : (conduct lb).allows q r)
    (hr : ∀ reply r', (conduct lb).replies q r reply r' → r' = r) (hf : ∀ reply, Stays lb r (f reply)) :
    Stays lb r (Program.request q >>= f) := by
  rintro r rfl
  refine ⟨ha, fun reply r' hreply => ?_⟩
  obtain rfl := hr reply r' hreply
  exact hf reply

end Stays

namespace Engine

variable {lb : Identifier} {r : Role} {tag : Tag} {b : Backoff}

theorem stays_checkpoint : Stays lb r checkpoint := by
  refine .request trivial (fun _ _ h => h) fun canceled => ?_
  cases canceled
  · exact .done ()
  · exact .fail .canceled

theorem stays_fetchListed (entries : List Listed) : Stays lb r (fetchListed entries) := by
  induction entries with
  | nil => exact .done []
  | cons entry rest ih =>
    rw [fetchListed]
    cases Kind.ofTypeIdentifier? entry.typeIdentifier with
    | none => exact ih
    | some kind =>
      refine .request trivial (fun _ _ h => h) fun answer => ?_
      rcases answer with _ | refusal | resource
      · exact .fail .canceled
      · cases refusal <;> first | exact ih | exact .fail _
      · exact ih.bind fun rest => .done (resource :: rest)

theorem stays_fetch : Stays lb r (fetch tag) := by
  refine stays_checkpoint.bind fun _ => .request trivial (fun _ _ h => h) fun answer => ?_
  rcases answer with _ | refusal | listed
  · exact .fail .canceled
  · cases refusal <;> first | exact .done _ | exact .fail _
  · exact (stays_fetchListed listed).bind fun _ => .done _

theorem stays_pollOne (t : Tracked) : Stays lb r (pollOne t) := by
  refine stays_checkpoint.bind fun _ => .request trivial (fun _ _ h => h) fun answer => ?_
  rcases answer with refusal | resource
  · cases refusal <;> first | exact .done _ | exact .fail _
  · exact .done _

theorem stays_pollAll (first : Bool) (tracked : List Tracked) : Stays lb r (pollAll first tracked) := by
  induction tracked with
  | nil => exact .done []
  | cons t tracked ih =>
    rw [pollAll]
    split
    · exact ih.bind fun rest => .done (t :: rest)
    · exact (stays_pollOne t).bind fun t => ih.bind fun rest => .done (t :: rest)

theorem stays_pause (current : Duration) : Stays lb .idle (pause b current) := by
  rw [pause]
  have hsleep (waiting next : Duration) : Stays lb .idle (do
      if ← Program.request (.sleep waiting) then Program.fail .canceled
      return next) := by
    refine .request ⟨rfl, rfl⟩ (fun _ _ h => h) fun canceled => ?_
    cases canceled
    · exact .done next
    · exact .fail .canceled
  split
  · exact .request trivial (fun _ _ h => h) fun draw => hsleep _ _
  · exact hsleep _ _

theorem stays_pollUntilReady (pauses : Nat) (current : Duration) (first : Bool)
    (tracked : List Tracked) : Stays lb .idle (pollUntilReady b pauses current first tracked) := by
  induction pauses generalizing current first tracked with
  | zero =>
    refine (stays_pollAll first tracked).bind fun tracked => (Stays.ofExcept _).bind fun ids => ?_
    cases ids
    · exact .done ()
    · exact .fail _
  | succ pauses ih =>
    refine (stays_pollAll first tracked).bind fun tracked => (Stays.ofExcept _).bind fun ids => ?_
    cases ids
    · exact .done ()
    · exact (stays_pause current).bind fun next => ih next false tracked

theorem stays_settle (resources : List Resource) : Stays lb .idle (settle b resources) := by
  have hwait : Stays lb .idle (waitReady b resources) :=
    (Stays.ofExcept _).bind fun _ => stays_pollUntilReady ..
  refine hwait.attempt fun out => ?_
  split
  · exact .done ()
  · exact .done ()
  · exact .fail _

/-- Whatever the provider answers, the section for one program at a time is left. -/
theorem stays_createTagged (resource : Resource) : Stays lb .idle (createTagged tag resource) := by
  rintro r rfl
  refine ⟨⟨rfl, rfl⟩, ?_⟩
  rintro - r rfl
  rintro r rfl
  refine ⟨trivial, ?_⟩
  rintro (refusal | id) r rfl
  · rintro r rfl
    refine ⟨rfl, ?_⟩
    rintro - r rfl
    rfl
  · rintro r rfl
    refine ⟨trivial, ?_⟩
    rintro tagged r rfl
    rintro r rfl
    refine ⟨rfl, ?_⟩
    rintro - r rfl
    cases tagged <;> rfl

theorem stays_createAll (resources : List Resource) : Stays lb .idle (createAll tag b resources) := by
  have heach (resources : List Resource) : Stays lb .idle (createEach tag resources) := by
    induction resources with
    | nil => exact .done []
    | cons resource rest ih =>
      exact stays_checkpoint.bind fun _ => (stays_createTagged resource).bind fun created =>
        ih.bind fun rest => .done (created :: rest)
  exact (heach _).bind fun created => stays_settle created

theorem stays_destroyPass (refused queue : List Resource) : Stays lb r (destroyPass refused queue) := by
  induction queue generalizing refused with
  | nil => exact .done refused
  | cons resource rest ih =>
    refine stays_checkpoint.bind fun _ => ?_
    cases resource.identifier with
    | none => exact .fail _
    | some id =>
      refine .request trivial (fun _ _ h => h) fun answer => ?_
      rcases answer with refusal | done
      · cases refusal <;> first | exact ih _ | exact .fail _
      · exact ih refused

theorem stays_destroyAll (resources : List Resource) : Stays lb r (destroyAll resources) := by
  have hpasses (passes : Nat) (pending : List Resource) : Stays lb r (destroyPasses passes pending) := by
    induction passes generalizing pending with
    | zero => exact .done ()
    | succ passes ih =>
      refine (stays_destroyPass [] pending).bind fun refused => ?_
      split
      · exact .done ()
      · split
        · exact .fail _
        · exact ih refused
  exact hpasses _ _

end Engine

namespace Reconciliation

open Engine

variable {tag : Tag} {l : Layout}

/-- Whoever leads a round releases it, whatever comes of the fetch. -/
theorem stays_snapshot : Stays l.loadBalancer .idle ((Source.shared tag).snapshot l.loadBalancer) := by
  have hrelease (outcome : Rendezvous.Outcome Shared) : (Program.request (.release outcome)).Meets
      (conduct l.loadBalancer) (fun _ r => r = .idle) ⟨false, true, false⟩ := by
    rintro r rfl
    refine ⟨rfl, ?_⟩
    rintro - r rfl
    rfl
  rintro r rfl
  refine ⟨⟨rfl, rfl⟩, ?_⟩
  rintro (_ | outcome) r rfl
  · have hfetch : Stays l.loadBalancer ⟨false, true, false⟩ (fetch tag) := stays_fetch
    have hlead : (Source.leadRound tag).Meets (conduct l.loadBalancer) (fun _ r => r = .idle)
        ⟨false, true, false⟩ := by
      refine Meets.attempt hfetch ?_
      rintro out r rfl
      split <;> exact hrelease _
    refine hlead.bind ?_ ?_
    · rintro outcome r rfl
      rcases outcome with denial | failure | snapshot <;> rfl
    · exact fun _ _ h => h
  · rcases outcome with denial | failure | snapshot <;> rfl

theorem stays_converge (cycles : Nat) :
    Stays l.loadBalancer .idle ((⟨.shared tag, l⟩ : Reconciliation).converge cycles) := by
  have hcheck : Stays l.loadBalancer .idle (⟨.shared tag, l⟩ : Reconciliation).check :=
    stays_snapshot.bind fun snapshot =>
      .request trivial (fun _ _ h => h) fun _ => .ofExcept _
  induction cycles with
  | zero => exact .fail _
  | succ cycles ih =>
    refine stays_checkpoint.bind fun _ => hcheck.attempt fun out => ?_
    split
    · refine Stays.bind (p := progressing) ?_ fun resources => (stays_settle resources).bind fun _ => ih
      exact .request trivial (fun _ _ h => h) fun latest => .done _
    · exact .fail _
    next plan =>
      split
      · exact .done ()
      · refine .request trivial (fun _ _ h => h) fun _ => ?_
        split
        · exact (stays_createAll _).bind fun _ => ih
        · exact (stays_destroyAll _).bind fun _ => ih

/-- Whatever it comes to, a reconciliation takes its leave and keeps nobody waiting. -/
theorem reconcile_meets_gone : (⟨.shared tag, l⟩ : Reconciliation).reconcile.Meets
    (conduct l.loadBalancer) (fun _ r => r = .gone) .idle := by
  refine Meets.attempt (stays_converge _) ?_
  rintro outcome r rfl
  have hfinish : ((Source.shared tag).finish l.loadBalancer).Meets (conduct l.loadBalancer)
      (fun _ r => r = .gone) .idle := by
    rintro r rfl
    refine ⟨⟨rfl, rfl⟩, ?_⟩
    rintro result r rfl
    cases result <;> rfl
  refine Meets.attempt hfinish ?_
  rintro finished r rfl
  exact (Stays.ofExcept outcome).bind fun _ => .ofExcept finished

end Reconciliation

end BalancerSync
