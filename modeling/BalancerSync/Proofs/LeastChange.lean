import BalancerSync.Proofs.Alone
import BalancerSync.Proofs.Ledger
import BalancerSync.Proofs.Thrift

namespace BalancerSync

open Program Engine World

variable {fresh : Nat → Identifier} {l : Layout} {bound : Nat} {m m' m'' : Memory} {p p' : Plan}
  {w w' : World} {id : Identifier} {r : Resource} {α : Type}

theorem World.eq_of_calm_rely (h : (calm fresh l true bound).rely w w') : w' = w := by
  rcases h with rfl | ⟨h, -⟩
  · rfl
  · cases h

theorem World.calm_acts {q : Request} {reply : q.Reply} (hlead : w.leading = none)
    (hq : (calm fresh l true bound).allows q w) (h : (calm fresh l true bound).replies q w reply w') :
    Acts fresh False q w reply w' := by
  cases q with
  | enter => exact h.2
  | arrive lb | leave lb => cases hq.2.1
  | release outcome =>
    have hleads := hq.2.2.1
    rw [hlead] at hleads
    cases hleads
  | call | watch | isCanceled | sleep | draw | latest | remember | exit => exact h

/-- What every call keeps is kept by a program, on top of all that it comes to. -/
theorem Program.Makes.keep_calm {P : Request → Prop} {I : Memory → Prop} {q : Program α}
    {post : Except Failure α → World → Prop} (h : q.Makes P)
    (hq : q.Meets (calm fresh l true bound) post w) (hlead : w.leading = none) (hI : I w.memory)
    (hcall : ∀ c m, P (.call c) ∨ P (.watch c) → I m → I ((Memory.provider fresh).answer c m).2) :
    q.Meets (calm fresh l true bound) (fun out w' => post out w' ∧ I w'.memory) w := by
  refine (h.keep (I := fun w => w.leading = none ∧ I w.memory) hq ⟨hlead, hI⟩ ?_ ?_).mono
    fun _ _ h => ⟨h.1, h.2.2⟩
  · rintro w w' hw hrely
    rwa [eq_of_calm_rely hrely]
  · rintro q w reply w' hP ⟨hlead, hI⟩ hallows hreply
    have hacts := calm_acts hlead hallows hreply
    refine ⟨hacts.leading.trans hlead, ?_⟩
    rcases hacts.memory with heq | ⟨c, rfl | rfl, heq⟩
    · rwa [heq]
    · exact heq ▸ hcall c _ (.inl hP) hI
    · exact heq ▸ hcall c _ (.inr hP) hI

/-- What there is of the service on the load balancer. -/
abbrev Layout.snapshot (l : Layout) (m : Memory) : Snapshot :=
  m.inventory.shareSnapshot l.service.tag l.loadBalancer

theorem Layout.holding_snapshot (hm : m.inventory.Stored) : (l.snapshot m).holding = l.Owns m := by
  funext id r
  exact propext (Inventory.holding_shareSnapshot hm)

structure Layout.Drafts (l : Layout) (m : Memory) (p : Plan) : Prop where
  stored : m.inventory.Stored
  plan : l.planReady (l.snapshot m) = .ok p
  notFailed : ∀ id r, l.Owns m id r → r.readiness ≠ .failed

namespace Memory

structure Untouched (l : Layout) (m m' : Memory) : Prop where
  matured : m.Matured l m'
  destroyed : m'.journal.destroyed = m.journal.destroyed
  issued : m'.issued = m.issued

/-- What is not wanted is gone, and whatever the plan keeps is there. Nothing has been destroyed that
had not been there from the beginning. -/
structure Pruned (l : Layout) (m : Memory) (p : Plan) (m' : Memory) : Prop where
  stage : l.Stage 3 (l.Owns m')
  kept : (Layout.Planned.kept (l.snapshot m) p).Within (l.Owns m')
  old : ∃ gone, m'.journal.destroyed = m.journal.destroyed ++ gone ∧
    ∀ id ∈ gone, ∃ r, m.inventory.objects.get? id = some r

theorem Matured.alike (h : m.Matured l m') :
    Snapshot.Alike ((m.inventory.share l.service.tag l.loadBalancer).map (·.2))
      ((m'.inventory.share l.service.tag l.loadBalancer).map (·.2)) := by
  have hmap (m : Memory) : ((m.inventory.share l.service.tag l.loadBalancer).map (·.2)).map
      (Resource.withStatus .progressing) = ((m.inventory.share l.service.tag l.loadBalancer).map
        fun e => (e.1, e.2.withStatus .progressing)).map (·.2) := by
    simp [Function.comp_def]
  have hincreasing (m : Memory) : ((m.inventory.share l.service.tag l.loadBalancer).map
      fun e => (e.1, e.2.withStatus .progressing)).Pairwise fun e e' => e.1 < e'.1 :=
    List.pairwise_map.2 (m.inventory.share_increasing l.service.tag l.loadBalancer)
  rw [Snapshot.Alike, hmap, hmap]
  congr 1
  refine Inventory.eq_of_increasing (hincreasing m') (hincreasing m) fun e => ?_
  simp only [List.mem_map, Prod.exists]
  constructor
  · rintro ⟨id, r, hr, rfl⟩
    rcases h.cases_of_owns (Inventory.mem_share_iff.1 hr) with hr | ⟨q, hq, -, rfl⟩
    · exact ⟨id, r, Inventory.mem_share_iff.2 hr, rfl⟩
    · exact ⟨id, q, Inventory.mem_share_iff.2 hq, by simp⟩
  · rintro ⟨id, r, hr, rfl⟩
    rcases h.kept id r (Inventory.mem_share_iff.1 hr) with hr | ⟨-, hr⟩
    · exact ⟨id, r, Inventory.mem_share_iff.2 hr, rfl⟩
    · exact ⟨id, _, Inventory.mem_share_iff.2 hr, by simp⟩

theorem Untouched.refl (m : Memory) : Untouched l m m := ⟨.refl m, rfl, rfl⟩

theorem Untouched.looked (h : Untouched l m m') (hm : m'.Matured l m'')
    (hd : m''.journal.destroyed = m'.journal.destroyed) (hi : m''.issued = m'.issued) :
    Untouched l m m'' := ⟨h.matured.trans hm, hd.trans h.destroyed, hi.trans h.issued⟩

theorem Untouched.notFailed (h : Untouched l m m') (hd : l.Drafts m p) (id : Identifier) (r : Resource)
    (hr : l.Owns m' id r) : r.readiness ≠ .failed := by
  rcases h.matured.cases_of_owns hr with hr | ⟨q, -, -, rfl⟩
  · exact hd.notFailed id r hr
  · exact Layout.not_failed_of_ready (Resource.status_withStatus ..)

/-- As soon as everything is ready, a plan is made that destroys the same objects. -/
theorem Untouched.pruned (h : Untouched l m m') (hd : l.Drafts m p) (hm' : m'.inventory.Stored)
    (hp : l.planReady (l.snapshot m') = .ok p')
    (hready : ∀ id r, l.Owns m' id r → r.status = .ready false)
    (hrest : (Holding.without (l.Owns m') (identifiers p'.destroy)).Ripens (l.Owns m''))
    (hledger : m.Ledger fresh m'') (hi : m''.issued = m.issued) : Pruned l m p m'' := by
  have hs := m.inventory.shareSnapshot_classified l.service.tag l.loadBalancer hd.stored
  have hs' := m'.inventory.shareSnapshot_classified l.service.tag l.loadBalancer hm'
  obtain ⟨_, _, hplan⟩ := Layout.exists_planned hs hd.plan
  obtain ⟨_, _, hplan'⟩ := Layout.exists_planned hs' hp
  have hspared {id : Identifier} {r r' : Resource} (hr : l.Owns m id r) (hr' : l.Owns m' id r')
      (hnot : r ∉ p.destroy) : id ∉ identifiers p'.destroy := by
    intro hid
    obtain ⟨q, hq, hqid⟩ := List.mem_filterMap.1 hid
    have hmem' := (Inventory.holding_shareSnapshot hm').2 hr'
    obtain rfl := hs'.eq_of_identifier ((hplan'.mem_destroy q).1 hq).1 hmem'.1
      (hqid.trans hmem'.2.symm)
    refine mt (hplan.mem_destroy_iff_of_alike hplan' h.matured.alike hs hs' ?_ ?_ ?_).1 hnot hq
    · exact List.mem_map.2 ⟨_, Inventory.mem_share_iff.2 hr, rfl⟩
    · exact List.mem_map.2 ⟨_, Inventory.mem_share_iff.2 hr', rfl⟩
    · exact (hm' id q hr'.1).trans (hd.stored id r hr.1).symm
  have hheld := Layout.holding_snapshot (l := l) hm'
  refine ⟨Layout.stage_of_without_unwanted hs' hplan' (Layout.owns_single _) (hheld ▸ hready)
    (hheld ▸ hrest), ?_, ?_⟩
  · rintro t id ⟨q, ⟨hq, hnot⟩, rfl⟩
    have hq := (Inventory.holding_shareSnapshot hd.stored).1 hq
    refine (hrest.has_iff (Layout.owns_single _)).2 ?_
    rcases h.matured.kept id q hq with hq' | ⟨-, hq'⟩
    · exact ⟨q, ⟨hq', hspared hq hq' hnot⟩, rfl⟩
    · exact ⟨_, ⟨hq', hspared hq hq' hnot⟩, by simp⟩
  · obtain ⟨gone, hgone, -, hmem⟩ := hledger.destroyed
    refine ⟨gone, hgone, fun id hid => ((hmem id).1 hid).1.resolve_right ?_⟩
    rintro ⟨n, hn, hn', -⟩
    omega

namespace Pruned

theorem looked (h : Pruned l m p m') (hm : m'.Matured l m'')
    (hd : m''.journal.destroyed = m'.journal.destroyed) : Pruned l m p m'' where
  stage := h.stage.ripens hm.ripens (Layout.owns_single _)
  kept t id ht := (hm.ripens.has_iff (Layout.owns_single _)).2 (h.kept t id ht)
  old := hd ▸ h.old

theorem neat (h : Pruned l m p m') : l.Neat (l.Owns m') := h.stage.neat (Nat.le_refl 3)

theorem ready (h : Pruned l m p m') (id : Identifier) (r : Resource) (hr : l.Owns m' id r) :
    r.status = .ready false := h.stage.ready (by omega) id r hr

theorem added {s : Snapshot} {backends frontends : Resolved} {es : List (Identifier × Resource)}
    (h : Pruned l m p m') (hs : s.Classified) (hp : l.Planned s p' backends frontends)
    (hheld : s.holding = l.Owns m') (hes : (es.map fun e => e.2.bare) = byRank [0, 1, 2] p'.create)
    (hadded : (Holding.adding (l.Owns m') es).Ripens (l.Owns m''))
    (hall : AllReady l m'' (es.map (·.1)))
    (hd : m''.journal.destroyed = m'.journal.destroyed) : Pruned l m p m'' where
  stage := by
    have hstage := Layout.stage_of_adding hs hp (hheld ▸ h.ready) (hheld ▸ h.neat) Layout.filled_zero
      hes (Layout.owns_single _) (hheld ▸ hadded) hall
    exact Layout.stage_of_neat (hstage.ready (by omega)) (hstage.neat (by omega)) Layout.filled_zero
  kept t id ht := (hadded.has_iff (Layout.owns_single _)).2 (Holding.has_adding.2 (.inl (h.kept t id ht)))
  old := hd ▸ h.old

end Pruned

/-- How far a reconciliation has come, with all its objects accounted for. -/
structure Sparing (fresh : Nat → Identifier) (l : Layout) (m : Memory) (p : Plan) (m' : Memory) :
    Prop where
  ledger : m.Ledger fresh m'
  phase : Untouched l m m' ∨ Pruned l m p m'

namespace Sparing

theorem looked (h : Sparing fresh l m p m') (hledger : m.Ledger fresh m'') (hm : m'.Matured l m'')
    (hd : m''.journal.destroyed = m'.journal.destroyed) (hi : m''.issued = m'.issued) :
    Sparing fresh l m p m'' where
  ledger := hledger
  phase := h.phase.imp (fun h => h.looked hm hd hi) fun h => h.looked hm hd

theorem notFailed (h : Sparing fresh l m p m') (hd : l.Drafts m p) (id : Identifier) (r : Resource)
    (hr : l.Owns m' id r) : r.readiness ≠ .failed := by
  rcases h.phase with h | h
  · exact h.notFailed hd id r hr
  · exact h.stage.notFailed (by omega) id r hr

theorem planReady (h : Sparing fresh l m p m') (hd : l.Drafts m p) (hm' : m'.inventory.Stored)
    (hp : l.plan (l.snapshot m') = .ok p') : l.planReady (l.snapshot m') = .ok p' ∧
      ∀ id r, l.Owns m' id r → r.status = .ready false := by
  have hs := m'.inventory.shareSnapshot_classified l.service.tag l.loadBalancer hm'
  have howns {id : Identifier} {r : Resource} : (l.snapshot m').holding id r ↔ l.Owns m' id r :=
    Inventory.holding_shareSnapshot hm'
  rcases Layout.plan_eq_ok_iff.1 hp with ⟨hfailed, -⟩ | ⟨hfailed, hprogressing, hp⟩
  · obtain ⟨r, hr⟩ := List.exists_mem_of_ne_nil _ hfailed
    obtain ⟨hmem, hr⟩ := (hs.mem_failed r).1 hr
    obtain ⟨id, hid⟩ := hs.identified r hmem
    exact absurd hr (h.notFailed hd id r (howns.1 ⟨hmem, hid⟩))
  · exact ⟨hp, fun id r hr => Layout.ready_of_not_failed_of_not_progressing hs hfailed hprogressing r
      (howns.2 hr).1⟩

/-- If there is nothing to be destroyed, nothing is there that is not wanted. -/
theorem pruned (h : Sparing fresh l m p m') (hd : l.Drafts m p) (hm' : m'.inventory.Stored)
    (hp : l.planReady (l.snapshot m') = .ok p')
    (hready : ∀ id r, l.Owns m' id r → r.status = .ready false) (hnil : p'.destroy = []) :
    Pruned l m p m' := by
  rcases h.phase with hu | h
  · refine hu.pruned hd hm' hp hready ?_ h.ledger hu.issued
    rw [hnil, identifiers, List.filterMap_nil, Holding.without_nil]
    exact .refl _
  · exact h

end Sparing

end Memory

namespace Reconciliation

theorem looks_meets_calm {q : Program α} {post : Except Failure α → World → Prop}
    (hf : m.Fresh fresh) (h : q.Makes Request.Looks) (hw : Resting fresh l w)
    (hledger : m.Ledger fresh w.memory) (hq : q.Meets (calm fresh l true bound) post w) :
    q.Meets (calm fresh l true bound) (fun out w' => post out w' ∧ m.Ledger fresh w'.memory ∧
      w'.memory.journal.destroyed = w.memory.journal.destroyed ∧
      w'.memory.issued = w.memory.issued) w := by
  refine h.keep_calm (I := fun m' => m.Ledger fresh m' ∧ m'.journal.destroyed =
    w.memory.journal.destroyed ∧ m'.issued = w.memory.issued) hq hw.notLeading ⟨hledger, rfl, rfl⟩ ?_
  rintro c m' hc ⟨hledger, hd, hi⟩
  have hc : c.Looks := hc.elim id id
  refine ⟨hledger.answer hf c, ((m'.noted_answer c).1 (Request.Looks.spares hc)).trans hd,
    ((m'.noted_answer c).2 ?_).trans hi⟩
  rintro r rfl
  exact hc

/-- What is destroyed is what the plan of the beginning destroys. -/
theorem act_meets_sparing (hf : m.Fresh fresh) (hd : l.Drafts m p)
    (hb : l.settings.backoff.validate = .ok ()) (hw : Resting fresh l w)
    (h : Memory.Sparing fresh l m p w.memory) (hp : l.plan (l.snapshot w.memory) = .ok p') :
    ((direct l).act p').Meets (calm fresh l true bound) (OnSuccess fun w' =>
      Resting fresh l w' ∧ Memory.Sparing fresh l m p w'.memory) w := by
  have hstored := hw.sound.tidy.closed.stored
  have hs := w.inventory.shareSnapshot_classified l.service.tag l.loadBalancer hstored
  have hheld : (l.snapshot w.memory).holding = l.Owns w.memory := Layout.holding_snapshot hstored
  obtain ⟨hready, hstatus⟩ := h.planReady hd hstored hp
  obtain ⟨backends, frontends, hplanned⟩ := Layout.exists_planned hs hready
  rw [act]
  split
  next hnil =>
    have hpruned := h.pruned hd hstored hready hstatus (by simpa using hnil)
    have hwants (r : Resource) (hr : r ∈ p'.create) : l.Wants (l.Owns w.memory) r :=
      hheld ▸ Layout.wants_of_plan hs hp hr
    refine ((createAll_spares _ _ _).keep_calm (I := fun m' => m.Ledger fresh m' ∧
      m'.journal.destroyed = w.memory.journal.destroyed)
      (calm_of_gentle hw (createAll_meets_gentle hb _ hw hwants)) hw.notLeading ⟨h.ledger, rfl⟩
      ?_).mono ?_
    · rintro c m' hc ⟨hledger, hdestroyed⟩
      have hc : Request.Spares (.call c) := hc.elim id Request.spares_watch_iff.1
      exact ⟨hledger.answer hf c, ((m'.noted_answer c).1 hc).trans hdestroyed⟩
    · rintro out w' ⟨⟨⟨rfl, hsteady, es, hes, hadded, hall⟩, -⟩, hledger, hdestroyed⟩
      exact ⟨hsteady.resting hw, hledger,
        .inr (hpruned.added hs hplanned hheld hes hadded hall hdestroyed)⟩
  next hnil =>
    have hne : p'.destroy ≠ [] := by simpa using hnil
    rcases h.phase with hu | hpruned
    · have hcondemned := Layout.condemned_destroy hw.sound.tidy.closed hw.sound.registered hs
        (hheld ▸ .refl _) hplanned
      rw [hheld] at hcondemned
      refine ((destroyAll_destroys _).keep_calm (I := fun m' => m.Ledger fresh m' ∧
        m'.issued = m.issued) (calm_of_gentle hw (destroyAll_meets_gentle _ hw hcondemned))
        hw.notLeading ⟨h.ledger, hu.issued⟩ ?_).mono ?_
      · rintro c m' hc ⟨hledger, hissued⟩
        refine ⟨hledger.answer hf c, ((m'.noted_answer c).2 ?_).trans hissued⟩
        rintro r rfl
        exact hc.elim id id
      · rintro out w' ⟨⟨⟨rfl, hsteady, hrest⟩, -⟩, hledger, hissued⟩
        exact ⟨hsteady.resting hw, hledger,
          .inr (hu.pruned hd hstored hready hstatus hrest hledger hissued)⟩
    · -- What is not wanted is gone already, so a plan has nothing to destroy.
      exact absurd ((hplanned.destroy_eq_nil_iff hs).2 (hheld ▸ hpruned.neat)) hne

theorem converge_meets_sparing (hf : m.Fresh fresh) (hd : l.Drafts m p)
    (hb : l.settings.backoff.validate = .ok ()) (ha : l.service.externalAddresses.Nodup)
    (he : l.service.endpoints.Nodup) (cycles : Nat) (hw : Resting fresh l w)
    (h : Memory.Sparing fresh l m p w.memory) :
    ((direct l).converge cycles).Meets (calm fresh l true bound) (OnSuccess fun w' =>
      Resting fresh l w' ∧ m.Ledger fresh w'.memory ∧ Memory.Pruned l m p w'.memory) w := by
  induction cycles generalizing w with
  | zero => trivial
  | succ cycles ih =>
    rw [converge_succ]
    intro w₁ hw₁
    cases eq_of_calm_rely hw₁
    refine ⟨trivial, ?_⟩
    rintro canceled w₁ ⟨hcanceled, rfl⟩
    cases canceled with
    | true => exact (hcanceled rfl).elim
    | false =>
      refine (looks_meets_calm hf check_looks hw h.ledger
        (check_meets_calm (r := direct l) Source.direct_supplies hw)).attempt ?_
      rintro out w₂ ⟨hout, hledger, hdestroyed, hissued⟩
      have hw₂ := hout.resting
      have h₂ := h.looked hledger hout.matured hdestroyed hissued
      have hstored := hw₂.sound.tidy.closed.stored
      have hs := w₂.inventory.shareSnapshot_classified l.service.tag l.loadBalancer hstored
      rcases Layout.plan_cases hs ha he with ⟨hfailed, hprogressing, hplan⟩ | ⟨p', hplan⟩
      · -- Something is not deployed yet, and nothing but looks is to come.
        obtain rfl := hout.plan.trans hplan
        dsimp only
        rw [← Program.bind_assoc]
        have hlooks : (progressing >>= fun resources =>
            settle l.settings.backoff resources).Makes Request.Looks :=
          progressing_looks.bind fun _ => settle_looks _ _
        have hheld : (l.snapshot w₂.memory).holding = l.Owns w₂.memory :=
          Layout.holding_snapshot hstored
        have hawait := await_meets_gentle hb hw₂ hout.latest hs (hheld ▸ .refl _) hfailed hprogressing
          Layout.stage_zero
        refine (looks_meets_calm hf hlooks hw₂ h₂.ledger (calm_of_gentle hw₂ hawait)).bind ?_ ?_
        · rintro - w₃ ⟨⟨⟨-, hmatured, hw₃, -⟩, -⟩, hledger, hdestroyed, hissued⟩
          exact ih hw₃ (h₂.looked hledger hmatured hdestroyed hissued)
        · rintro failure w₃ -
          trivial
      · obtain rfl := hout.plan.trans hplan
        dsimp only
        split
        next hempty =>
          obtain ⟨hready, hstatus⟩ := h₂.planReady hd hstored hplan
          have hnil : p'.destroy = [] := by simp [Plan.isEmpty] at hempty; exact hempty.2
          exact ⟨hw₂, h₂.ledger, h₂.pruned hd hstored hready hstatus hnil⟩
        next hempty =>
          intro w₃ hw₃
          cases eq_of_calm_rely hw₃
          refine ⟨trivial, ?_⟩
          rintro - w₄ rfl
          have hw₄ : Resting fresh l { w₂ with latest := none } :=
            ⟨hw₂.sound.of_eq rfl rfl rfl, hw₂.outside, hw₂.notLeading, hw₂.here⟩
          refine (act_meets_sparing hf hd hb hw₄ h₂ hplan).bind ?_ fun _ _ _ => trivial
          rintro - w₅ ⟨hw₅, h₅⟩
          exact ih hw₅ h₅

end Reconciliation

/-- What the plan spares of what there is. -/
def Layout.spared (l : Layout) (m : Memory) (p : Plan) : List (Identifier × Resource) :=
  (m.inventory.share l.service.tag l.loadBalancer).filter fun e => e.2 ∉ p.destroy

theorem Layout.mem_spared_iff : (id, r) ∈ l.spared m p ↔ l.Owns m id r ∧ r ∉ p.destroy := by
  rw [spared, List.mem_filter, Inventory.mem_share_iff, decide_eq_true_eq]

/-- A reconciliation that destroyed `gone` has come to its end, and everything is accounted for. -/
structure Layout.Settles (fresh : Nat → Identifier) (l : Layout) (m : Memory) (p : Plan)
    (gone : List Identifier) (w : World) : Prop where
  new : m.Fresh fresh
  drafts : l.Drafts m p
  respects : Respects fresh l m gone w
  notPending : w.pending = none
  closed : w.inventory.Closed l.service.tag none
  ledger : m.Ledger fresh w.memory
  pruned : Memory.Pruned l m p w.memory

namespace Layout.Settles

variable {gone : List Identifier}

theorem gone_nodup (h : l.Settles fresh m p gone w) : gone.Nodup := by
  obtain ⟨gone', hgone', hn, -⟩ := h.ledger.destroyed
  exact List.append_cancel_left (h.respects.journal.symm.trans hgone') ▸ hn

theorem mem_gone (h : l.Settles fresh m p gone w) :
    id ∈ gone ↔ m.Known fresh w.memory id ∧ w.inventory.objects.get? id = none := by
  obtain ⟨gone', hgone', -, hmem⟩ := h.ledger.destroyed
  exact List.append_cancel_left (h.respects.journal.symm.trans hgone') ▸ hmem id

/-- What has been destroyed belonged to the load balancer from the beginning. -/
theorem exists_owns_of_mem_gone (h : l.Settles fresh m p gone w) (hid : id ∈ gone) :
    ∃ r, l.Owns m id r := by
  obtain ⟨gone', hgone', hold⟩ := h.pruned.old
  cases List.append_cancel_left (h.respects.journal.symm.trans hgone')
  obtain ⟨r, hr⟩ := hold id hid
  refine (h.respects.mine id hid).resolve_right (Respects.not_bore h.new (.inl ?_))
  exact OrderedMap.mem_keys_of_get? hr

/-- What belongs to the load balancer still does, unless it has been destroyed. -/
theorem owns_of_get? (h : l.Settles fresh m p gone w) {q : Resource} (hr : l.Owns m id r)
    (hq : w.inventory.objects.get? id = some q) : l.Owns w.memory id q := by
  have hbare := h.respects.bare_eq hr.1 hq
  have hkept {j : Identifier} {p : Resource} (hp : w.inventory.objects.get? j = some p)
      (hc : m.inventory.Carries l.service.tag j) : w.inventory.Carries l.service.tag j :=
    h.ledger.tags l.service.tag j p hp hc
  refine hr.of_parent hq hbare (hkept hq hr.2.1) fun j p hj hp hc => ?_
  rw [← Resource.parent?_bare, ← hbare, Resource.parent?_bare] at hj
  obtain ⟨p', hp'⟩ := (h.closed.resolved id q hq).exists_parent hj
  exact ⟨p', hp', h.respects.bare_eq hp hp', hkept hp' hc⟩

theorem leads (h : l.Settles fresh m p gone w) :
    l.Leads (l.snapshot m) p (l.Owns w.memory) where
  neat := h.pruned.neat
  kept := h.pruned.kept
  back id r hr j hj t ht := by
    obtain ⟨q, hq, rfl⟩ := ht
    have hr := (Inventory.holding_shareSnapshot h.drafts.stored).1 hr
    have hmention : m.inventory.Mentions j := .inr (.inr (.inr ⟨id, r, hr.1, hj⟩))
    obtain ⟨q', hq'⟩ := (h.respects.mine_of_owns h.new hq).resolve_right
      (Respects.not_bore h.new hmention)
    exact ⟨q', (Inventory.holding_shareSnapshot h.drafts.stored).2 hq',
      (h.respects.bare_eq hq'.1 hq.1).symm⟩

/-- What the plan spares is there in the end, and ready. -/
theorem owns_of_not_mem_destroy (h : l.Settles fresh m p gone w) (hr : l.Owns m id r)
    (hnot : r ∉ p.destroy) : l.Owns w.memory id (r.withStatus (.ready false)) := by
  have hholding := (Inventory.holding_shareSnapshot h.drafts.stored).2 hr
  obtain ⟨q, hq, hb⟩ := h.pruned.kept r.bare id ⟨r, ⟨hholding, hnot⟩, rfl⟩
  have heq : q = r.withStatus (.ready false) := by
    apply Resource.eq_of_bare
    · simp [hb]
    · simp [h.closed.stored id q hq.1, h.drafts.stored id r hr.1]
    · simp [h.pruned.ready id q hq]
  exact heq ▸ hq

theorem mem_gone_of_mem_destroy (h : l.Settles fresh m p gone w) (hr : l.Owns m id r)
    (hdestroy : r ∈ p.destroy) : id ∈ gone := by
  refine h.mem_gone.2 ⟨.inl ⟨r, hr.1⟩, Option.eq_none_iff_forall_ne_some.2 fun q hq => ?_⟩
  -- If it were still there it would be wanted in the end, and then the plan would have kept it.
  have hs := m.inventory.shareSnapshot_classified l.service.tag l.loadBalancer h.drafts.stored
  obtain ⟨_, _, hplan⟩ := Layout.exists_planned hs h.drafts.plan
  have hholding := (Inventory.holding_shareSnapshot h.drafts.stored).2 hr
  have hhas : Holding.Has (l.Owns w.memory) r.bare id :=
    ⟨q, h.owns_of_get? hr hq, h.respects.bare_eq hr.1 hq⟩
  exact (h.leads.kept_of_has hplan hs hholding hhas).2 hdestroy

theorem mem_gone_iff (h : l.Settles fresh m p gone w) :
    id ∈ gone ↔ ∃ r, l.Owns m id r ∧ r ∈ p.destroy := by
  constructor
  · intro hid
    obtain ⟨r, hr⟩ := h.exists_owns_of_mem_gone hid
    refine ⟨r, hr, by_contra fun hnot => ?_⟩
    have hget := (h.owns_of_not_mem_destroy hr hnot).1
    cases hget.symm.trans (h.mem_gone.1 hid).2
  · rintro ⟨r, hr, hdestroy⟩
    exact h.mem_gone_of_mem_destroy hr hdestroy

/-- Exactly what is to be destroyed has been destroyed, each object once. -/
theorem gone_perm (h : l.Settles fresh m p gone w) :
    (gone.map some).Perm (p.destroy.map Resource.identifier) := by
  have hs := m.inventory.shareSnapshot_classified l.service.tag l.loadBalancer h.drafts.stored
  obtain ⟨_, _, hplan⟩ := Layout.exists_planned hs h.drafts.plan
  have howns {id : Identifier} {r : Resource} (hr : r ∈ p.destroy)
      (hid : r.identifier = some id) : l.Owns m id r :=
    (Inventory.holding_shareSnapshot h.drafts.stored).1 ⟨((hplan.mem_destroy r).1 hr).1, hid⟩
  have hnodup : (p.destroy.map Resource.identifier).Nodup := by
    refine hplan.destroy_nodup.map_on fun r hr q hq heq => ?_
    exact hs.eq_of_identifier ((hplan.mem_destroy r).1 hr).1 ((hplan.mem_destroy q).1 hq).1 heq
  refine (List.perm_ext_iff_of_nodup (h.gone_nodup.map fun _ _ => Option.some.inj) hnodup).2 ?_
  intro o
  rw [List.mem_map, List.mem_map]
  constructor
  · rintro ⟨id, hid, rfl⟩
    obtain ⟨r, hr, hdestroy⟩ := h.mem_gone_iff.1 hid
    exact ⟨r, hdestroy, h.drafts.stored id r hr.1⟩
  · rintro ⟨r, hr, rfl⟩
    obtain ⟨id, hid⟩ := hs.identified r ((hplan.mem_destroy r).1 hr).1
    exact ⟨id, h.mem_gone_iff.2 ⟨r, howns hr hid, hr⟩, hid.symm⟩

theorem owns_of_bore (h : l.Settles fresh m p gone w) (hid : m.Bore fresh w.memory id) :
    id ∉ gone ∧ ∃ r, l.Owns w.memory id r := by
  have hnone : m.inventory.objects.get? id = none :=
    OrderedMap.get?_eq_none_iff.2 fun hk => Respects.not_bore h.new (.inl hk) hid
  have hgone : id ∉ gone := by
    intro hgone
    obtain ⟨r, hr⟩ := h.exists_owns_of_mem_gone hgone
    cases hr.1.symm.trans hnone
  obtain ⟨r, hr⟩ := Option.ne_none_iff_exists'.1 fun hget => hgone (h.mem_gone.2 ⟨.inr hid, hget⟩)
  obtain ⟨-, hw, hc⟩ := h.respects.new id r hr hnone
  have hb := hw.belongsTo
  rw [Inventory.belongsTo_bare] at hb
  have hc := hc.resolve_right fun hp => nomatch hp.symm.trans h.notPending
  exact ⟨hgone, r, hr, hc, hb⟩

/-- What is there in the end has been spared or created. -/
theorem exists_owns_iff (h : l.Settles fresh m p gone w) : (∃ r, l.Owns w.memory id r) ↔
    (∃ r, l.Owns m id r ∧ r ∉ p.destroy) ∨ m.Bore fresh w.memory id := by
  constructor
  · rintro ⟨q, hq⟩
    refine (h.respects.mine_of_owns h.new hq).imp_left ?_
    rintro ⟨r, hr⟩
    refine ⟨r, hr, fun hdestroy => ?_⟩
    cases hq.1.symm.trans (h.mem_gone.1 (h.mem_gone_of_mem_destroy hr hdestroy)).2
  · rintro (⟨r, hr, hnot⟩ | hid)
    · exact ⟨_, h.owns_of_not_mem_destroy hr hnot⟩
    · exact (h.owns_of_bore hid).2

/-- As many objects are there as have been spared and created. -/
theorem length_share (h : l.Settles fresh m p gone w) :
    (w.inventory.share l.service.tag l.loadBalancer).length + m.issued =
      (l.spared m p).length + w.memory.issued := by
  obtain ⟨born, hborn, hlength, hmem⟩ := h.new.exists_born h.ledger.issued_le
  have hspared : ((l.spared m p).map (·.1)).Nodup :=
    (m.inventory.share_ids_nodup _ _).sublist (List.filter_sublist.map _)
  -- What is spared has been there before, so that its identifier is not a new one.
  have hdisjoint : ((l.spared m p).map (·.1)).Disjoint born := by
    intro id hid hb
    obtain ⟨⟨_, r⟩, hr, rfl⟩ := List.mem_map.1 hid
    have hr := (Layout.mem_spared_iff.1 hr).1.1
    exact Respects.not_bore h.new (.inl (OrderedMap.mem_keys_of_get? hr)) ((hmem _).1 hb)
  have hperm : ((w.inventory.share l.service.tag l.loadBalancer).map (·.1)).Perm
      ((l.spared m p).map (·.1) ++ born) := by
    refine (List.perm_ext_iff_of_nodup (w.inventory.share_ids_nodup _ _)
      (hspared.append hborn hdisjoint)).2 fun id => ?_
    simp only [List.mem_append, List.mem_map, Prod.exists, exists_and_right, exists_eq_right,
      Inventory.mem_share_iff, Layout.mem_spared_iff, hmem]
    exact h.exists_owns_iff
  have hlen := hperm.length_eq
  rw [List.length_append, List.length_map, List.length_map] at hlen
  omega

end Layout.Settles

namespace Reconciliation

/-- If nothing fails, everything is accounted for in the end. -/
theorem reconcile_meets_settles (hf : m.Fresh fresh) (hd : l.Drafts m p)
    (hv : l.settings.validate = .ok ()) (hc : 7 ≤ l.settings.maxCycles)
    (ha : l.service.externalAddresses.Nodup) (he : l.service.endpoints.Nodup)
    (hw : Resting fresh l w) (hclean : Clean fresh l m w)
    (h : Memory.Sparing fresh l m p w.memory) :
    (direct l).reconcile.Meets (calm fresh l true bound) (fun out w' => out = .ok () ∧
      l.Serves w'.inventory ∧ ∃ gone, l.Settles fresh m p gone w') w := by
  have hb := backoff_validate_of_validate hv
  have hsparing : (direct l).reconcile.Meets (calm fresh l true bound) (OnSuccess fun w' =>
      Resting fresh l w' ∧ m.Ledger fresh w'.memory ∧ Memory.Pruned l m p w'.memory) w := by
    refine (converge_meets_sparing hf hd hb ha he _ hw h).attempt ?_
    rintro (failure | _) w' hout
    · trivial
    · exact hout
  have hserves : (direct l).reconcile.Meets (calm fresh l true bound) _ w :=
    direct_reconcile_meets_calm hv hc ha he hw
  refine ((hserves.and hsparing).and_of_does_less (I := fun w => w.leading = none)
    (reconcile_meets_safe hf hclean) hw.notLeading ?_ ?_).mono ?_
  · rintro w w' hlead hrely
    cases eq_of_calm_rely hrely
    exact ⟨rfl, hlead⟩
  · intro q w reply w' hlead hallows hreply
    have hacts := calm_acts hlead hallows hreply
    exact ⟨hacts.mono False.elim, hacts.leading.trans hlead⟩
  · rintro out w' ⟨⟨⟨rfl, hserves, -⟩, hw', hledger, hpruned⟩, ⟨gone, hrespects⟩, hpending⟩
    refine ⟨rfl, hserves, gone, hf, hd, hrespects, hpending, ?_, hledger, hpruned⟩
    exact hpending ▸ hw'.sound.tidy.closed

/-- If nothing has failed, a reconciliation makes the least change that there is. It destroys exactly
what the planners do not want of what is there, each object once. Everything else stays under its
identifier, nothing is created in place of it, and what has been created is not destroyed. -/
theorem changes_least {k : Conditions Memory} {s : Surroundings Memory} (hs : s.Calm fresh k)
    (hclosed : s.provider.inventory.Closed l.service.tag none)
    (hfaults : s.provider.faults.Harmless l.settings.backoff.steps) (hfresh : s.provider.Fresh fresh)
    (hlb : l.loadBalancer ∈ s.provider.inventory.loadBalancers.keys)
    (hfailed : ∀ id r, l.Owns s.provider id r → r.readiness ≠ .failed)
    (ha : l.service.externalAddresses.Nodup) (he : l.service.endpoints.Nodup)
    (hv : l.settings.validate = .ok ()) (hc : 7 ≤ l.settings.maxCycles) :
    ∃ p gone new s', l.planReady (l.snapshot s.provider) = .ok p ∧
      (direct l).reconcile.run (Surroundings.handler k) s = (some (.ok ()), s') ∧
      s'.provider.journal.destroyed = s.provider.journal.destroyed ++ gone ∧
      (gone.map some).Perm (p.destroy.map Resource.identifier) ∧ gone.Nodup ∧
      (∀ id r, l.Owns s.provider id r → r ∉ p.destroy →
        l.Owns s'.provider id (r.withStatus (.ready false))) ∧
      s'.provider.journal.created = s.provider.journal.created ++ new ∧
      s'.provider.issued = s.provider.issued + new.length ∧
      new.length + (l.spared s.provider p).length =
        l.service.ports.keys.length + l.service.ports.keys.length
          + l.service.ports.keys.length * l.service.externalAddresses.length
          + l.service.ports.keys.length * l.service.endpoints.length ∧
      ∀ id, s.provider.Bore fresh s'.provider id → id ∉ gone ∧ ∃ r, l.Owns s'.provider id r := by
  have hstored := hclosed.stored
  have hsnapshot :=
    s.provider.inventory.shareSnapshot_classified l.service.tag l.loadBalancer hstored
  obtain ⟨p, hp⟩ := Layout.exists_plan hsnapshot ha he
  have hw : Resting fresh l (start s.provider s.latest) :=
    ⟨⟨⟨hclosed, hfaults, hfresh, nofun⟩, hlb, fun _ _ _ h => nomatch h⟩, rfl, rfl, rfl⟩
  have hclean : Clean fresh l s.provider (start s.provider s.latest) :=
    ⟨⟨[], .refl hstored s.latest⟩, rfl⟩
  have hmeets := @reconcile_meets_settles fresh l 0 s.provider p _ hfresh ⟨hstored, hp, hfailed⟩ hv hc
    ha he hw hclean ⟨.refl s.provider, .inl (.refl s.provider)⟩
  have haround : (start s.provider s.latest).Around fresh k s := ⟨hs, rfl, rfl, rfl, fun _ => rfl⟩
  obtain ⟨out, s', w, hrun, hw, rfl, hserves, gone, hsettles⟩ := haround.exists_run hmeets
  obtain ⟨new, hcreated, hissued⟩ := hsettles.ledger.created
  obtain ⟨identifier, hdeployed⟩ := hserves
  have hlength := hsettles.length_share
  rw [← List.length_map (·.2), hdeployed.length_eq, l.length_deployed] at hlength
  refine ⟨p, gone, new, s', hp, hrun, ?_⟩
  rw [← hw.memory]
  exact ⟨hsettles.respects.journal, hsettles.gone_perm, hsettles.gone_nodup,
    fun id r => hsettles.owns_of_not_mem_destroy, hcreated, hissued.symm, by omega,
    fun id => hsettles.owns_of_bore⟩

end Reconciliation

namespace Sample

/-- A backend that is wanted is not deployed yet, and an old frontend is on it. -/
def halfway : Memory :=
  { memory with
    inventory :=
      { inventory with
        objects := .ofList
          [(⟨"b-1"⟩, .backend { layout.backend "http" with identifier := some ⟨"b-1"⟩ }),
            (⟨"f-1"⟩, .frontend ⟨some ⟨"f-1"⟩, "old.web", ⟨"lb-1"⟩, ⟨"b-1"⟩, .tcp, .ready false⟩)]
        tags := .ofList [(.ofService "1", .ofList [⟨"b-1"⟩, ⟨"f-1"⟩])] } }

end Sample

theorem sample_changes_least :
    (Surroundings.initial Sample.halfway).Calm .scattered
      ⟨Memory.provider .scattered, Memory.provider .scattered, fun _ => false⟩ ∧
    Sample.halfway.inventory.Closed Sample.layout.service.tag none ∧
    Sample.halfway.faults.Harmless Sample.layout.settings.backoff.steps ∧
    Sample.halfway.Fresh .scattered ∧
    Sample.layout.loadBalancer ∈ Sample.halfway.inventory.loadBalancers.keys ∧
    (∀ id r, Sample.layout.Owns Sample.halfway id r → r.readiness ≠ .failed) ∧
    Sample.layout.service.externalAddresses.Nodup ∧ Sample.layout.service.endpoints.Nodup ∧
    Sample.layout.settings.validate = .ok () ∧ 7 ≤ Sample.layout.settings.maxCycles ∧
    ∃ new s', (Reconciliation.direct Sample.layout).reconcile.run
        (Surroundings.handler
          ⟨Memory.provider .scattered, Memory.provider .scattered, fun _ => false⟩)
        (.initial Sample.halfway) = (some (.ok ()), s') ∧
      s'.provider.journal.destroyed = [⟨"f-1"⟩] ∧ s'.provider.journal.created = new ∧
      new.length = 3 ∧ ∃ r, Sample.layout.Owns s'.provider ⟨"b-1"⟩ r := by
  have hs : (Surroundings.initial Sample.halfway).Calm .scattered
      ⟨Memory.provider .scattered, Memory.provider .scattered, fun _ => false⟩ :=
    ⟨⟨rfl, rfl, fun _ => rfl⟩, rfl, rfl⟩
  have hclosed : Sample.halfway.inventory.Closed Sample.layout.service.tag none := by
    decide +kernel
  have hfaults : Sample.halfway.faults.Harmless Sample.layout.settings.backoff.steps := by
    decide +kernel
  have hfresh : Sample.halfway.Fresh .scattered := Memory.fresh_scattered (by decide +kernel)
  have hlb : Sample.layout.loadBalancer ∈ Sample.halfway.inventory.loadBalancers.keys := by
    decide +kernel
  have hshare : ∀ e ∈ Sample.halfway.inventory.share Sample.layout.service.tag
      Sample.layout.loadBalancer, e.2.readiness ≠ .failed := by decide +kernel
  have hfailed (id : Identifier) (r : Resource) (hr : Sample.layout.Owns Sample.halfway id r) :
      r.readiness ≠ .failed := hshare (id, r) (Inventory.mem_share_iff.2 hr)
  have ha : Sample.layout.service.externalAddresses.Nodup := by decide +kernel
  have he : Sample.layout.service.endpoints.Nodup := by decide +kernel
  have hv : Sample.layout.settings.validate = .ok () := by decide +kernel
  have hc : 7 ≤ Sample.layout.settings.maxCycles := by decide +kernel
  refine ⟨hs, hclosed, hfaults, hfresh, hlb, hfailed, ha, he, hv, hc, ?_⟩
  obtain ⟨p, gone, new, s', hp, hrun, hgone, hperm, -, hkept, hnew, -, hcount, -⟩ :=
    Reconciliation.changes_least hs hclosed hfaults hfresh hlb hfailed ha he hv hc
  have hp : Sample.layout.planReady (Sample.layout.snapshot Sample.halfway) = .ok p := hp
  -- The plan destroys the old frontend, and spares the backend.
  have hplan : (Sample.layout.planReady (Sample.layout.snapshot Sample.halfway)).toOption.map
      (fun p => (p.destroy.map Resource.identifier, (Sample.layout.spared Sample.halfway p).map (·.1)))
        = some ([some ⟨"f-1"⟩], [⟨"b-1"⟩]) := by decide +kernel
  rw [hp] at hplan
  obtain ⟨hdestroy, hspared⟩ := Prod.mk.inj (Option.some.inj hplan)
  rw [hdestroy] at hperm
  have hsingle : gone = [⟨"f-1"⟩] :=
    List.map_injective_iff.2 (Option.some_injective _) (List.perm_singleton.1 hperm)
  have hlength : (Sample.layout.spared Sample.halfway p).length = 1 := by
    rw [← List.length_map (·.1), hspared]
    rfl
  have hlength' : new.length + (Sample.layout.spared Sample.halfway p).length = 4 := hcount
  have hmem : (⟨"b-1"⟩ : Identifier) ∈ (Sample.layout.spared Sample.halfway p).map (·.1) := by
    rw [hspared]
    exact List.mem_singleton_self _
  obtain ⟨⟨_, r⟩, hr, rfl⟩ := List.mem_map.1 hmem
  obtain ⟨hr, hnot⟩ := Layout.mem_spared_iff.1 hr
  refine ⟨new, s', hrun, hgone.trans (hsingle ▸ rfl), hnew, by omega, _, hkept _ r hr hnot⟩

end BalancerSync
