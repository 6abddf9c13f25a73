import BalancerSync.Proofs.Alone

namespace BalancerSync

open Program Engine World

variable {fresh : Nat → Identifier} {α β : Type} {before mid after : Memory}

def Failure.Fatal : Failure → Prop
  | .resourcesProgressing _ | .notConverged _ => False
  | _ => True

/-- Another number of cycles is told. -/
def Failure.recounted (cycles : Nat) : Failure → Failure
  | .notConverged _ => .notConverged cycles
  | failure => failure

def Fatally (out : Except Failure α) : Prop := ∀ failure, out = .error failure → failure.Fatal

namespace Fatally

theorem ok (a : α) : Fatally (.ok a) := fun _ h => nomatch h

theorem error {failure : Failure} (h : failure.Fatal) :
    Fatally (.error failure : Except Failure α) := by
  intro _ he
  cases he
  exact h

theorem bind {out : Except Failure α} {f : α → Except Failure β} (h : Fatally out)
    (hf : ∀ a, Fatally (f a)) : Fatally (out >>= f) := by
  cases out with
  | ok a => exact hf a
  | error failure => exact error (h failure rfl)

theorem recounted {out : Except Failure α} (h : Fatally out) (cycles : Nat) :
    out.mapError (Failure.recounted cycles) = out := by
  cases out with
  | ok a => rfl
  | error failure =>
    have hfatal := h failure rfl
    cases failure with
    | notConverged => exact hfatal.elim
    | _ => rfl

theorem between [Comparable α] (targets present : List α) :
    Fatally (Difference.between targets present) := by
  unfold Difference.between
  split
  · exact error trivial
  · exact ok _

theorem resolve [Comparable α] (present : List α) (wanted : List (String × α)) :
    Fatally (Layout.resolve present wanted) := by
  induction wanted with
  | nil => exact ok _
  | cons e rest ih =>
    rw [Layout.resolve]
    split
    · exact ih
    · split
      · exact error trivial
      · exact ih.bind fun _ => ok _

theorem stage [Comparable α] (wanted : List (String × α)) (present : List α) :
    Fatally (Layout.stage wanted present) :=
  (between _ present).bind fun _ => (resolve present wanted).bind fun _ => ok _

/-- Where everything is ready, a plan fails for good if it fails. -/
theorem planReady (l : Layout) (s : Snapshot) : Fatally (l.planReady s) :=
  (stage l.backends s.backends).bind fun backends =>
    (stage (l.frontends backends.2) s.frontends).bind fun frontends =>
      (between (l.binds frontends.2) s.binds).bind fun _ =>
        (between (l.servers backends.2) s.servers).bind fun _ => ok _

/-- A plan either has to wait, or it fails for good. -/
theorem of_plan {l : Layout} {s : Snapshot} {failure : Failure} (h : l.plan s = .error failure) :
    (∃ ids, failure = .resourcesProgressing ids) ∨ failure.Fatal := by
  unfold Layout.plan at h
  split at h
  · cases h
  · split at h
    · cases h
      exact .inl ⟨_, rfl⟩
    · exact .inr (planReady l s failure h)

end Fatally

namespace Program

variable {p : Program α} {q : α → Program β} {out : Except Failure β}

/-- Whatever the program draws, and whatever it remembers: if nobody else does anything it comes to
`out`, and to a provider as it is `after`. -/
def Yields (fresh : Nat → Identifier) (p : Program α) (before : Memory) (out : Except Failure α)
    (after : Memory) : Prop :=
  ∀ w : World, w.memory = before →
    p.Meets (quiet fresh) (fun r w' => r = out ∧ w'.memory = after) w

namespace Yields

theorem done (a : α) : (done a).Yields fresh before (.ok a) before := fun _ hw => ⟨rfl, hw⟩

theorem fail (failure : Failure) :
    (fail failure : Program α).Yields fresh before (.error failure) before :=
  fun _ hw => ⟨rfl, hw⟩

theorem bind {a : α} (hp : p.Yields fresh before (.ok a) mid) (hq : (q a).Yields fresh mid out after) :
    (p >>= q).Yields fresh before out after := by
  intro w hw
  refine (hp w hw).bind ?_ ?_
  · rintro a w' ⟨ha, hw'⟩
    cases ha
    exact hq w' hw'
  · rintro failure w' ⟨h, -⟩
    cases h

theorem bind_error {failure : Failure} (hp : p.Yields fresh before (.error failure) after) :
    (p >>= q).Yields fresh before (.error failure) after := by
  intro w hw
  refine (hp w hw).bind ?_ ?_
  · rintro a w' ⟨h, -⟩
    cases h
  · rintro failure w' ⟨h, hw'⟩
    cases h
    exact ⟨rfl, hw'⟩

theorem attempt {q : Except Failure α → Program β} {r : Except Failure α}
    (hp : p.Yields fresh before r mid) (hq : (q r).Yields fresh mid out after) :
    (p.attempt >>= q).Yields fresh before out after := by
  intro w hw
  refine (hp w hw).attempt ?_
  rintro r w' ⟨rfl, hw'⟩
  exact hq w' hw'

theorem call {c : Call} {f : c.Answer → Program β}
    (h : (f ((Memory.provider fresh).answer c before).1).Yields fresh
      ((Memory.provider fresh).answer c before).2 out after) :
    (request (.call c) >>= f).Yields fresh before out after := by
  rintro w rfl w' rfl
  refine ⟨trivial, fun reply w'' hreply => ?_⟩
  obtain ⟨rfl, rfl⟩ := Prod.mk.inj hreply
  exact h _ rfl

theorem watch {c : Call} {f : Option c.Answer → Program β}
    (h : (f (some ((Memory.provider fresh).answer c before).1)).Yields fresh
      ((Memory.provider fresh).answer c before).2 out after) :
    (request (.watch c) >>= f).Yields fresh before out after := by
  rintro w rfl w' rfl
  refine ⟨trivial, ?_⟩
  rintro reply w'' (⟨hc, -⟩ | ⟨a, rfl, hreply⟩)
  · exact hc.elim
  · obtain ⟨rfl, rfl⟩ := Prod.mk.inj hreply
    exact h _ rfl

/-- A request that is none of the provider's business. -/
theorem still {q : Request} {f : q.Reply → Program β} (hq : q.Solitary)
    (h : ∀ w reply w', Acts fresh False q w reply w' →
      w'.memory = w.memory ∧ (f reply).Yields fresh before out after) :
    (request q >>= f).Yields fresh before out after := by
  rintro w hw w' rfl
  refine ⟨hq, fun reply w'' hreply => ?_⟩
  obtain ⟨hsame, hf⟩ := h w' reply w'' hreply
  exact hf w'' (hsame.trans hw)

theorem enter {f : Unit → Program β} (h : (f ()).Yields fresh before out after) :
    (request .enter >>= f).Yields fresh before out after := by
  refine .still trivial fun w _ w' hw => ?_
  cases hw
  exact ⟨rfl, h⟩

theorem exit {f : Unit → Program β} (h : (f ()).Yields fresh before out after) :
    (request .exit >>= f).Yields fresh before out after := by
  refine .still trivial fun w _ w' hw => ?_
  cases hw
  exact ⟨rfl, h⟩

theorem remember {latest : Option Snapshot} {f : Unit → Program β}
    (h : (f ()).Yields fresh before out after) :
    (request (.remember latest) >>= f).Yields fresh before out after := by
  refine .still trivial fun w _ w' hw => ?_
  cases hw
  exact ⟨rfl, h⟩

theorem checkpoint : checkpoint.Yields fresh before (.ok ()) before := by
  refine .still trivial fun w canceled w' hw => ⟨congrArg World.memory hw.2, ?_⟩
  cases canceled with
  | false => exact .done ()
  | true => exact (hw.1 rfl).elim

theorem sleep {d : Duration} {a : α} {f : α → Program β} (h : (f a).Yields fresh before out after) :
    (request (.sleep d) >>= fun canceled =>
      (if canceled then Program.fail .canceled else Program.done a) >>= f).Yields fresh before out
        after := by
  refine .still trivial fun w canceled w' hw => ⟨congrArg World.memory hw.2, ?_⟩
  cases canceled with
  | false => exact h
  | true => exact (hw.1 rfl).elim

/-- The waiting times are left to chance. They make no difference to what is asked of the provider. -/
theorem pause {b : Backoff} {current : Duration} {f : Duration → Program β}
    (h : ∀ next, (f next).Yields fresh before out after) :
    (pause b current >>= f).Yields fresh before out after := by
  rw [Engine.pause]
  split
  · exact .still trivial fun w draw w' hw => ⟨congrArg World.memory hw, .sleep (h _)⟩
  · exact .sleep (h _)

end Yields

/-- Run alone and not canceled, whatever the clock, the draws and what is remembered: beside a
provider that is as `before` the program comes to `out`, and leaves the provider as `after`. -/
def ComesTo (fresh : Nat → Identifier) (p : Program α) (before : Memory) (out : Except Failure α)
    (after : Memory) : Prop :=
  ∀ (k : Conditions Memory) (s : Surroundings Memory), s.Calm fresh k → s.provider = before →
    ∃ s', p.run (Surroundings.handler k) s = (some out, s') ∧ s'.provider = after

theorem Yields.comesTo {out : Except Failure α} (h : p.Yields fresh before out after) :
    p.ComesTo fresh before out after := by
  intro k s hs hbefore
  have hnear : (start s.provider s.latest).Near fresh k s := ⟨hs, rfl, rfl⟩
  obtain ⟨out', s', w', hrun, hnear', rfl, hafter⟩ := hnear.exists_run (h _ hbefore)
  exact ⟨s', hrun, hnear'.memory.symm.trans hafter⟩

theorem ComesTo.unique {out out' : Except Failure α} {after' : Memory}
    (h : p.ComesTo fresh before out after) (h' : p.ComesTo fresh before out' after') :
    out = out' ∧ after = after' := by
  have hs : (Surroundings.initial before).Calm fresh
      ⟨Memory.provider fresh, Memory.provider fresh, fun _ => false⟩ :=
    ⟨⟨rfl, rfl, fun _ => rfl⟩, rfl, rfl⟩
  obtain ⟨s, hrun, hafter⟩ := h _ _ hs rfl
  obtain ⟨s', hrun', hafter'⟩ := h' _ _ hs rfl
  rw [hrun] at hrun'
  cases hrun'
  exact ⟨rfl, hafter.symm.trans hafter'⟩

/-- What the program comes to depends on nothing but the provider, and if it fails it is for good. -/
def Steady (fresh : Nat → Identifier) (p : Program α) : Prop :=
  ∀ before, ∃ out after, Fatally out ∧ p.Yields fresh before out after

namespace Steady

theorem done (a : α) : Steady fresh (done a) := fun before => ⟨_, before, .ok a, .done a⟩

theorem fail {failure : Failure} (h : failure.Fatal) : Steady fresh (fail failure : Program α) :=
  fun before => ⟨_, before, .error h, .fail failure⟩

theorem ofExcept {out : Except Failure α} (h : Fatally out) : Steady fresh (ofExcept out) := by
  cases out with
  | ok a => exact done a
  | error failure => exact fail (h failure rfl)

theorem bind (hp : Steady fresh p) (hq : ∀ a, Steady fresh (q a)) : Steady fresh (p >>= q) := by
  intro before
  obtain ⟨out, mid, hout, hp⟩ := hp before
  cases out with
  | ok a =>
    obtain ⟨out, after, hout, hq⟩ := hq a mid
    exact ⟨out, after, hout, hp.bind hq⟩
  | error failure => exact ⟨_, mid, .error (hout failure rfl), hp.bind_error⟩

theorem attempt {q : Except Failure α → Program β} (hp : Steady fresh p)
    (hq : ∀ r, Fatally r → Steady fresh (q r)) : Steady fresh (p.attempt >>= q) := by
  intro before
  obtain ⟨r, mid, hr, hp⟩ := hp before
  obtain ⟨out, after, hout, hq⟩ := hq r hr mid
  exact ⟨out, after, hout, hp.attempt hq⟩

theorem call {c : Call} {f : c.Answer → Program β} (h : ∀ answer, Steady fresh (f answer)) :
    Steady fresh (request (.call c) >>= f) := by
  intro before
  obtain ⟨out, after, hout, h⟩ := h _ ((Memory.provider fresh).answer c before).2
  exact ⟨out, after, hout, .call h⟩

theorem watch {c : Call} {f : Option c.Answer → Program β}
    (h : ∀ answer, Steady fresh (f (some answer))) : Steady fresh (request (.watch c) >>= f) := by
  intro before
  obtain ⟨out, after, hout, h⟩ := h _ ((Memory.provider fresh).answer c before).2
  exact ⟨out, after, hout, .watch h⟩

/-- What comes to the same as a steady program is steady. -/
theorem of_yields {p' : Program α} (h : Steady fresh p)
    (hp : ∀ {before out after}, p.Yields fresh before out after → p'.Yields fresh before out after) :
    Steady fresh p' := by
  intro before
  obtain ⟨out, after, hout, h⟩ := h before
  exact ⟨out, after, hout, hp h⟩

theorem enter {f : Unit → Program β} (h : Steady fresh (f ())) :
    Steady fresh (request .enter >>= f) := h.of_yields .enter

theorem exit {f : Unit → Program β} (h : Steady fresh (f ())) :
    Steady fresh (request .exit >>= f) := h.of_yields .exit

theorem remember {latest : Option Snapshot} {f : Unit → Program β} (h : Steady fresh (f ())) :
    Steady fresh (request (.remember latest) >>= f) := h.of_yields .remember

theorem checkpoint : Steady fresh checkpoint := fun before => ⟨_, before, .ok (), .checkpoint⟩

end Steady

end Program

namespace Engine

theorem fetchListed_steady (listed : List Listed) : Steady fresh (fetchListed listed) := by
  induction listed with
  | nil => exact .done _
  | cons entry rest ih =>
    rw [fetchListed]
    split
    · exact ih
    · refine .watch fun answer => ?_
      rcases answer with refusal | resource
      · cases refusal with
        | notFound => exact ih
        | _ => exact .fail trivial
      · exact ih.bind fun _ => .done _

theorem fetch_steady (tag : Tag) : Steady fresh (fetch tag) := by
  refine Steady.checkpoint.bind fun _ => .watch fun answer => ?_
  rcases answer with refusal | listed
  · cases refusal with
    | unprocessable => exact .done _
    | _ => exact .fail trivial
  · exact (fetchListed_steady listed).bind fun _ => .done _

theorem pollOne_steady (t : Tracked) : Steady fresh (pollOne t) := by
  refine Steady.checkpoint.bind fun _ => .call fun answer => ?_
  rcases answer with refusal | r
  · cases refusal with
    | notFound => exact .done _
    | _ => exact .fail trivial
  · exact .done _

theorem pollAll_steady (first : Bool) (tracked : List Tracked) :
    Steady fresh (pollAll first tracked) := by
  induction tracked with
  | nil => exact .done _
  | cons t rest ih =>
    rw [pollAll]
    split
    · exact ih.bind fun _ => .done _
    · exact (pollOne_steady t).bind fun _ => ih.bind fun _ => .done _

theorem fatally_progressing (tracked : List Tracked) : Fatally (Tracked.progressing tracked) := by
  unfold Tracked.progressing
  split
  · exact .ok _
  · exact .error trivial

theorem pollUntilReady_yields (fresh : Nat → Identifier) (b : Backoff) (pauses : Nat) (first : Bool)
    (tracked : List Tracked) (before : Memory) : ∃ out after, Fatally out ∧
      ∀ current, (pollUntilReady b pauses current first tracked).Yields fresh before out after := by
  induction pauses generalizing first tracked before with
  | zero =>
    have hsteady : Steady fresh (pollUntilReady b 0 b.initial first tracked) := by
      refine (pollAll_steady first tracked).bind fun tracked =>
        (Steady.ofExcept (fatally_progressing tracked)).bind fun ids => ?_
      split
      · exact .done _
      · exact .fail trivial
    obtain ⟨out, after, hout, h⟩ := hsteady before
    exact ⟨out, after, hout, fun _ => h⟩
  | succ pauses ih =>
    have hsteady : Steady fresh (pollAll first tracked) := pollAll_steady first tracked
    obtain ⟨out, mid, hout, hpoll⟩ := hsteady before
    cases out with
    | error failure => exact ⟨_, mid, .error (hout failure rfl), fun _ => hpoll.bind_error⟩
    | ok tracked =>
      have hprogressing := fatally_progressing tracked
      cases hids : Tracked.progressing tracked with
      | error failure =>
        refine ⟨.error failure, mid, .error (hprogressing failure hids), fun current => hpoll.bind ?_⟩
        rw [hids]
        exact .fail failure
      | ok ids =>
        cases ids with
        | nil =>
          refine ⟨.ok (), mid, .ok (), fun current => hpoll.bind ?_⟩
          rw [hids]
          exact .done ()
        | cons id ids =>
          obtain ⟨out, after, hout, h⟩ := ih false tracked mid
          refine ⟨out, after, hout, fun current => hpoll.bind ?_⟩
          rw [hids]
          exact .pause h

theorem settle_steady (b : Backoff) (resources : List Resource) :
    Steady fresh (settle b resources) := by
  have hwait : Steady fresh (waitReady b resources) := by
    refine (Steady.ofExcept ?_).bind fun _ before => ?_
    · unfold Backoff.validate
      repeat' split
      all_goals first | exact .error trivial | exact .ok _
    · obtain ⟨out, after, hout, h⟩ := pollUntilReady_yields fresh b b.steps true
        (resources.filterMap Tracked.ofResource?) before
      exact ⟨out, after, hout, h b.initial⟩
  refine hwait.attempt fun r hr => ?_
  split
  · exact .done _
  · exact .done _
  · exact .fail (hr _ rfl)

theorem createTagged_steady (tag : Tag) (r : Resource) : Steady fresh (createTagged tag r) := by
  refine .enter (.call fun answer => ?_)
  rcases answer with refusal | id
  · exact .exit (.fail trivial)
  · refine .call fun tagged => .exit ?_
    rcases tagged with refusal | _
    · exact .fail trivial
    · exact .done _

theorem createAll_steady (tag : Tag) (b : Backoff) (resources : List Resource) :
    Steady fresh (createAll tag b resources) := by
  have heach (rs : List Resource) : Steady fresh (createEach tag rs) := by
    induction rs with
    | nil => exact .done _
    | cons r rest ih =>
      exact Steady.checkpoint.bind fun _ => (createTagged_steady tag r).bind fun _ =>
        ih.bind fun _ => .done _
  exact (heach _).bind fun _ => settle_steady b _

theorem destroyPass_steady (refused queue : List Resource) :
    Steady fresh (destroyPass refused queue) := by
  induction queue generalizing refused with
  | nil => exact .done _
  | cons r rest ih =>
    refine Steady.checkpoint.bind fun _ => ?_
    split
    · exact .fail trivial
    · refine .call fun answer => ?_
      rcases answer with refusal | _
      · cases refusal with
        | notFound => exact ih refused
        | rateLimited => exact .fail trivial
        | _ => exact ih _
      · exact ih refused

theorem destroyPasses_steady (passes : Nat) (pending : List Resource) :
    Steady fresh (destroyPasses passes pending) := by
  induction passes generalizing pending with
  | zero => exact .done _
  | succ passes ih =>
    refine (destroyPass_steady [] pending).bind fun refused => ?_
    split
    · exact .done _
    · split
      · exact .fail trivial
      · exact ih refused

end Engine

/-- The same, with another number of cycles. -/
def Layout.within (l : Layout) (cycles : Nat) : Layout :=
  { l with settings := { l.settings with maxCycles := cycles } }

namespace Reconciliation

variable {l : Layout} {s : Snapshot}

/-- What comes of a check makes a cycle act, or wait. Tells whether there was nothing to do. -/
def respond (r : Reconciliation) : Except Failure Plan → Program Bool
  | .error (.resourcesProgressing _) => progressing >>= fun resources =>
    settle r.layout.settings.backoff resources >>= fun _ => done false
  | .error failure => fail failure
  | .ok plan =>
    if plan.isEmpty then done true
    else request (.remember none) >>= fun _ => r.act plan >>= fun _ => done false

def cycle (r : Reconciliation) : Program Bool :=
  checkpoint >>= fun _ => r.check.attempt >>= r.respond

theorem converge_eq_cycle (r : Reconciliation) (cycles : Nat) :
    r.converge (cycles + 1) =
      r.cycle >>= fun finished => if finished then done () else r.converge cycles := by
  rw [converge_succ, cycle, Program.bind_assoc]
  congr 1
  funext _
  rw [Program.bind_assoc]
  congr 1
  funext out
  rcases out with failure | plan
  · cases failure with
    | resourcesProgressing ids =>
      simp only [respond, Program.bind_assoc]
      rfl
    | _ => rfl
  · by_cases hempty : plan.isEmpty = true
    · simp only [respond, if_pos hempty]
      rfl
    · simp only [respond, if_neg hempty, Program.bind_assoc]
      rfl

theorem respond_of_fatal (r : Reconciliation) {failure : Failure} (h : failure.Fatal) :
    r.respond (.error failure) = fail failure := by
  cases failure with
  | resourcesProgressing => exact h.elim
  | _ => rfl

theorem respond_steady (plan : Plan) : Steady fresh ((direct l).respond (.ok plan)) := by
  rw [respond]
  split
  · exact .done true
  · refine .remember (.bind ?_ fun _ => .done false)
    unfold act
    split
    · exact createAll_steady _ _ _
    · exact destroyPasses_steady _ _

/-- A check remembers what it has seen, and the cycle goes on from there. -/
theorem check_yields {f : Except Failure Plan → Program Bool} {out : Except Failure Bool}
    (hs : ((direct l).source.snapshot l.loadBalancer).Yields fresh before (.ok s) mid)
    (hf : ∀ w : World, w.memory = mid → w.latest = some s →
      (f (l.plan s)).Meets (quiet fresh) (fun r w' => r = out ∧ w'.memory = after) w) :
    ((direct l).check.attempt >>= f).Yields fresh before out after := by
  intro w hw
  have hcheck : (direct l).check.Meets (quiet fresh)
      (fun out w' => out = l.plan s ∧ w'.memory = mid ∧ w'.latest = some s) w := by
    refine (hs w hw).bind ?_ ?_
    · rintro s w' ⟨h, hw'⟩ w'' rfl
      cases h
      refine ⟨trivial, ?_⟩
      rintro - w₁ rfl
      exact .ofExcept ⟨rfl, hw', rfl⟩
    · rintro failure w' ⟨h, -⟩
      cases h
  refine hcheck.attempt ?_
  rintro r w' ⟨rfl, hmemory, hlatest⟩
  exact hf w' hmemory hlatest

/-- What a cycle waits for is known from its own check, whatever an earlier one has seen. -/
theorem cycle_steady : Steady fresh (direct l).cycle := by
  refine Steady.checkpoint.bind fun _ before => ?_
  have hsource : Steady fresh ((direct l).source.snapshot l.loadBalancer) :=
    (fetch_steady l.service.tag).bind fun _ => .done _
  obtain ⟨out, mid, hout, hsource⟩ := hsource before
  cases out with
  | error failure =>
    have hcheck : (direct l).check.Yields fresh before (.error failure) mid := hsource.bind_error
    have hfatal := hout failure rfl
    refine ⟨.error failure, mid, .error hfatal, hcheck.attempt ?_⟩
    rw [respond_of_fatal _ hfatal]
    exact .fail failure
  | ok s =>
    cases hplan : l.plan s with
    | ok plan =>
      obtain ⟨out, after, hout, h⟩ := respond_steady (l := l) plan mid
      refine ⟨out, after, hout, check_yields hsource fun w hw _ => ?_⟩
      rw [hplan]
      exact h w hw
    | error failure =>
      rcases Fatally.of_plan hplan with ⟨ids, rfl⟩ | hfatal
      -- The only place at which it matters what is remembered.
      · have hsettle : Steady fresh (settle l.settings.backoff s.progressing >>= fun _ => done false) :=
          (settle_steady _ _).bind fun _ => .done false
        obtain ⟨out, after, hout, h⟩ := hsettle mid
        refine ⟨out, after, hout, check_yields hsource fun w hw hlatest => ?_⟩
        rw [hplan]
        rintro w' rfl
        refine ⟨trivial, ?_⟩
        rintro latest w'' ⟨rfl, rfl⟩
        rw [hlatest]
        exact h _ hw
      · refine ⟨.error failure, mid, .error hfatal, check_yields hsource fun w hw _ => ?_⟩
        rw [hplan, respond_of_fatal _ hfatal]
        exact ⟨rfl, hw⟩

/-- Either the first cycles come to an end, and those that are left do not matter, or whatever number
of cycles is left goes on from where the first ones have come to. -/
theorem converge_splits (fresh : Nat → Identifier) (l : Layout) (first : Nat) (before : Memory) :
    (∃ out after, Fatally out ∧ ∀ cycles rest,
      ((direct (l.within cycles)).converge (first + rest)).Yields fresh before out after) ∨
    ∃ mid, ∀ cycles rest out after,
      ((direct (l.within cycles)).converge rest).Yields fresh mid out after →
      ((direct (l.within cycles)).converge (first + rest)).Yields fresh before out after := by
  induction first generalizing before with
  | zero =>
    refine .inr ⟨before, fun cycles rest out after h => ?_⟩
    rwa [Nat.zero_add]
  | succ first ih =>
    have hsteady : Steady fresh (direct l).cycle := cycle_steady
    obtain ⟨out, mid, hout, hcycle⟩ := hsteady before
    -- Only `converge` looks at the number of cycles.
    have hcycle (cycles : Nat) : (direct (l.within cycles)).cycle.Yields fresh before out mid := hcycle
    have hsucc (cycles rest : Nat) : (direct (l.within cycles)).converge (first + 1 + rest) =
        (direct (l.within cycles)).cycle >>= fun finished => if finished then done ()
          else (direct (l.within cycles)).converge (first + rest) := by
      rw [Nat.add_right_comm, converge_eq_cycle]
    simp only [hsucc]
    rcases out with failure | _ | _
    · exact .inl ⟨.error failure, mid, .error (hout failure rfl),
        fun cycles _ => (hcycle cycles).bind_error⟩
    · rcases ih mid with ⟨out, after, hout, h⟩ | ⟨mid', h⟩
      · exact .inl ⟨out, after, hout, fun cycles rest => (hcycle cycles).bind (h cycles rest)⟩
      · exact .inr ⟨mid', fun cycles rest out after hrest =>
          (hcycle cycles).bind (h cycles rest out after hrest)⟩
    · exact .inl ⟨.ok (), mid, .ok (), fun cycles _ => (hcycle cycles).bind (.done ())⟩

theorem converge_zero_yields (l : Layout) (before : Memory) :
    ((direct l).converge 0).Yields fresh before (.error (.notConverged l.settings.maxCycles)) before :=
  .fail _

theorem reconcile_yields {out : Except Failure Unit}
    (h : ((direct l).converge l.settings.maxCycles).Yields fresh before out after) :
    (direct l).reconcile.Yields fresh before out after := by
  refine h.attempt ?_
  cases out with
  | ok => exact .done ()
  | error failure => exact .fail failure

/-- A reconciliation with `first` cycles always comes to the same from the same provider. If it has
not run out of cycles, one with more of them comes to that as well. Otherwise a new reconciliation
with `rest` cycles goes on, and it leaves the provider as a single one with all of the cycles does and
with the same result, up to the number of cycles that is told. -/
theorem reconcile_in_parts (fresh : Nat → Identifier) (l : Layout) (first rest : Nat)
    (before : Memory) : ∃ out mid,
      (direct (l.within first)).reconcile.ComesTo fresh before out mid ∧
      ((∀ cycles, out ≠ .error (.notConverged cycles)) →
        (direct (l.within (first + rest))).reconcile.ComesTo fresh before out mid) ∧
      ∀ cycles, out = .error (.notConverged cycles) → ∃ out' after,
        (direct (l.within rest)).reconcile.ComesTo fresh mid out' after ∧
        (direct (l.within (first + rest))).reconcile.ComesTo fresh before
          (out'.mapError (Failure.recounted (first + rest))) after := by
  rcases converge_splits fresh l first before with ⟨out, mid, hout, h⟩ | ⟨mid, h⟩
  · refine ⟨out, mid, (reconcile_yields (h first 0)).comesTo,
      fun _ => (reconcile_yields (h (first + rest) rest)).comesTo, ?_⟩
    rintro cycles rfl
    exact (hout _ rfl).elim
  · refine ⟨_, mid, (reconcile_yields (h first 0 _ _ (converge_zero_yields _ mid))).comesTo,
      fun hout => absurd rfl (hout first), ?_⟩
    rintro - -
    rcases converge_splits fresh l rest mid with ⟨out', after, hout', h'⟩ | ⟨after, h'⟩
    · refine ⟨out', after, (reconcile_yields (h' rest 0)).comesTo, ?_⟩
      rw [hout'.recounted]
      exact (reconcile_yields (h _ rest _ _ (h' _ 0))).comesTo
    · refine ⟨_, after, (reconcile_yields (h' rest 0 _ _ (converge_zero_yields _ after))).comesTo, ?_⟩
      exact (reconcile_yields (h _ rest _ _ (h' _ 0 _ _ (converge_zero_yields _ after)))).comesTo

end Reconciliation

end BalancerSync
