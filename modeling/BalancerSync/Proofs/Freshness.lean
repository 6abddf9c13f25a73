import BalancerSync.Proofs.BoundPorts
import BalancerSync.Proofs.Shifting
import BalancerSync.Proofs.Succession

namespace BalancerSync

open Program Engine World

variable {fresh : Nat → Identifier} {l : Layout} {v v' : Inventory} {tag : Tag} {lb : Identifier}
  {m m' : Memory} {w w' : World} {latest before after : Option Snapshot} {α : Type}

namespace Inventory

def binds (v : Inventory) (tag : Tag) (lb : Identifier) : List Bind :=
  (v.share tag lb).filterMap fun
    | (_, .bind b) => some b
    | _ => none

/-- The addresses of these binds, and for each of them the ports. -/
def boundPorts (v : Inventory) (tag : Tag) (lb : Identifier) : BoundPorts :=
  .ofList (((v.binds tag lb).map Bind.address).map fun a =>
    (a, .ofList (((v.binds tag lb).filter fun b => b.address = a).map Bind.port)))

theorem mem_binds_iff {b : Bind} : b ∈ v.binds tag lb ↔ ∃ id, v.Owns tag lb id (.bind b) := by
  simp only [binds, List.mem_filterMap, Prod.exists, mem_share_iff]
  constructor
  · rintro ⟨id, r, hr, hb⟩
    cases r <;> cases hb
    exact ⟨id, hr⟩
  · rintro ⟨id, hb⟩
    exact ⟨id, _, hb, rfl⟩

theorem boundPorts_inhabited (v : Inventory) (tag : Tag) (lb : Identifier) :
    (v.boundPorts tag lb).Inhabited := by
  apply BoundPorts.ofList_inhabited
  intro a ha
  obtain ⟨b, hb, rfl⟩ := List.mem_map.1 ha
  exact ⟨b.port, List.mem_map.2 ⟨b, List.mem_filter.2 ⟨hb, decide_eq_true rfl⟩, rfl⟩⟩

theorem boundPorts_binds_iff {a : Address} {p : UInt16} : (v.boundPorts tag lb).Binds a p ↔
    ∃ b ∈ v.binds tag lb, b.address = a ∧ b.port = p := by
  rw [boundPorts, BoundPorts.ofList_binds_iff]
  simp only [List.mem_map, List.mem_filter, decide_eq_true_eq]
  constructor
  · rintro ⟨-, b, ⟨hb, rfl⟩, rfl⟩
    exact ⟨b, hb, rfl, rfl⟩
  · rintro ⟨b, hb, rfl, rfl⟩
    exact ⟨⟨b, hb, rfl⟩, b, ⟨hb, rfl⟩, rfl⟩

/-- What a status tells of the snapshot of what is there. -/
theorem ofBinds_shareSnapshot (v : Inventory) (tag : Tag) (lb : Identifier) :
    BoundPorts.ofBinds (v.shareSnapshot tag lb).binds = v.boundPorts tag lb := by
  have hbinds : (v.shareSnapshot tag lb).binds = v.binds tag lb := by
    simp only [shareSnapshot, Snapshot.ofList, binds, List.filterMap_map]
    refine List.filterMap_congr fun e _ => ?_
    obtain ⟨id, r⟩ := e
    cases r <;> rfl
  rw [hbinds]
  apply BoundPorts.eq_of_binds (BoundPorts.ofBinds_inhabited _) (v.boundPorts_inhabited tag lb)
  intro a p
  rw [BoundPorts.ofBinds_binds_iff, boundPorts_binds_iff]

/-- A change of status binds no port and frees none. -/
theorem Resembles.boundPorts_eq (h : v.Resembles v') :
    v'.boundPorts tag lb = v.boundPorts tag lb := by
  have hbind {v v' : Inventory} (h : v.Resembles v') {b : Bind} (hb : b ∈ v.binds tag lb) :
      ∃ b' ∈ v'.binds tag lb, b'.address = b.address ∧ b'.port = b.port := by
    obtain ⟨id, ho⟩ := mem_binds_iff.1 hb
    obtain ⟨q, hq, hbare, -⟩ := h.exists_owns ho
    cases q with
    | bind b' =>
      obtain ⟨-, -, -, haddress, hport, -⟩ := Bind.mk.inj (Resource.bind.inj hbare)
      exact ⟨b', mem_binds_iff.2 ⟨id, hq⟩, haddress, hport⟩
    | backend b' | frontend f | server s => cases hbare
  apply BoundPorts.eq_of_binds (v'.boundPorts_inhabited tag lb) (v.boundPorts_inhabited tag lb)
  intro a p
  rw [boundPorts_binds_iff, boundPorts_binds_iff]
  constructor
  · rintro ⟨b, hb, rfl, rfl⟩
    exact hbind h.symm hb
  · rintro ⟨b, hb, rfl, rfl⟩
    exact hbind h hb

end Inventory

def Snapshot.Tells (s : Snapshot) (l : Layout) (v : Inventory) : Prop :=
  BoundPorts.ofBinds s.binds = v.boundPorts l.service.tag l.loadBalancer

/-- Objects are under their own identifiers, and what is remembered tells the ports that are
bound. -/
structure UpToDate (l : Layout) (m : Memory) (latest : Option Snapshot) : Prop where
  stored : m.inventory.Stored
  tells : ∀ s, latest = some s → s.Tells l m.inventory

namespace World

/-- What may be changed only when nothing is remembered, and what may be remembered. -/
def Careful (l : Layout) : Request → World → Prop
  | .call c, w | .watch c, w => c.Looks ∨ w.latest = none
  | .remember latest, w => ∀ s, latest = some s → s.Tells l w.inventory
  | _, _ => True

/-- Surroundings that let a program take care, and in which the faults of the provider change at any
time. -/
def careful (fresh : Nat → Identifier) (l : Layout) : Environment World where
  rely w w' := ∃ f, w' = w.withFaults f
  allows := Careful l
  replies := Acts fresh True

theorem Acts.latest_eq {q : Request} {reply : q.Reply} (hq : q.Retains)
    (h : Acts fresh True q w reply w') : w'.latest = w.latest := by
  cases h.effect with
  | remember latest => exact hq.elim
  | none | call | watch | enter | exit => rfl

theorem careful_of_retains {q : Request} (hq : q.Retains) (hw : w.latest = none) :
    Careful l q w := by
  cases q with
  | call c | watch c => exact .inr hw
  | remember latest => exact hq.elim
  | _ => trivial

theorem careful_of_looks {q : Request} (hq : q.Looks) (hr : q.Retains) : Careful l q w := by
  cases q with
  | call c | watch c => exact .inl hq
  | remember latest => exact hr.elim
  | _ => trivial

theorem upToDate_of_glanced (h : w.Glanced w') (hl : w'.latest = w.latest)
    (hw : UpToDate l w.memory w.latest) : UpToDate l w'.memory w'.latest where
  stored := h.resembles.stored hw.stored
  tells s hs := (hw.tells s (hl ▸ hs)).trans h.resembles.boundPorts_eq.symm

/-- As long as a program takes care, it remembers nothing but what is the case. -/
theorem upToDate_of_acts {q : Request} {reply : q.Reply} (hw : UpToDate l w.memory w.latest)
    (hq : Careful l q w) (h : Acts fresh True q w reply w') : UpToDate l w'.memory w'.latest := by
  have hglanced (hq : q.Looks) (hr : q.Retains) : UpToDate l w'.memory w'.latest :=
    upToDate_of_glanced (h.glanced hq) (h.latest_eq hr) hw
  have hforgotten (hr : q.Retains) (hnone : w.latest = none) : UpToDate l w'.memory w'.latest :=
    ⟨h.stored hw.stored, fun s hs => by
      rw [h.latest_eq hr, hnone] at hs
      cases hs⟩
  cases h.effect with
  | call c | watch c =>
    rcases hq with hlooks | hnone
    · exact hglanced hlooks trivial
    · exact hforgotten trivial hnone
  | remember latest => exact ⟨hw.stored, hq⟩
  | none | enter | exit => exact hw

theorem careful_sustained :
    Sustained fresh (careful fresh l) fun w => UpToDate l w.memory w.latest where
  idle w := ⟨w.memory.faults, rfl⟩
  acts _ _ _ _ hw hq h := ⟨h, upToDate_of_acts hw hq h⟩

/-- A program that only looks, and remembers nothing. -/
theorem looks_meets_careful {p : Program α} (h : p.Makes fun q => q.Looks ∧ q.Retains) :
    p.Meets (careful fresh l) (fun _ w' => w.Glanced w' ∧ w'.latest = w.latest) w := by
  refine h.meets (I := fun w' => w.Glanced w' ∧ w'.latest = w.latest) ⟨.refl w, rfl⟩ ?_ ?_ ?_
  · rintro w₁ _ ⟨hw₁, hl⟩ ⟨f, rfl⟩
    exact ⟨hw₁.withFaults f, hl⟩
  · exact fun q w₁ hq _ => careful_of_looks hq.1 hq.2
  · rintro q w₁ reply w₂ hq ⟨hw₁, hl⟩ hreply
    exact ⟨hw₁.trans (hreply.glanced hq.1), (hreply.latest_eq hq.2).trans hl⟩

/-- A program that may change anything, when nothing is remembered. -/
theorem retains_meets_careful {p : Program α} (h : p.Makes Request.Retains)
    (hw : w.inventory.Stored) (hnone : w.latest = none) :
    p.Meets (careful fresh l)
      (fun (_ : Except Failure α) (w' : World) => w'.inventory.Stored ∧ w'.latest = none) w := by
  refine h.meets (I := fun w' : World => w'.inventory.Stored ∧ w'.latest = none)
    ⟨hw, hnone⟩ ?_ ?_ ?_
  · rintro w₁ _ hw₁ ⟨f, rfl⟩
    exact hw₁
  · exact fun q w₁ hq hw₁ => careful_of_retains hq hw₁.2
  · rintro q w₁ reply w₂ hq ⟨hw₁, hnone₁⟩ hreply
    exact ⟨hreply.stored hw₁, (hreply.latest_eq hq).trans hnone₁⟩

end World

namespace Reconciliation

/-- A fetch returns a snapshot that tells the ports that are bound. -/
theorem fetch_meets_careful (hw : w.inventory.Stored) : (fetch l.service.tag).Meets (careful fresh l)
    (fun out w' => w'.inventory.Stored ∧
      Returning (fun s w' => (s.narrowTo l.loadBalancer).Tells l w'.inventory) out w') w := by
  have hlooks : (fetch l.service.tag).Makes fun q => q.Looks ∧ q.Retains :=
    (fetch_fetches _).mono fun _ hq => ⟨hq.yields.looks, hq.retains⟩
  have hglanced : (fetch l.service.tag).Meets (careful fresh l)
      (fun _ w' => w.Glanced w' ∧ w'.latest = w.latest) w := looks_meets_careful hlooks
  have hmeets := hglanced.and_of_does_less (I := fun _ => True)
    (fetch_meets_shifting w : (fetch l.service.tag).Meets (shifting fresh l True) _ w) trivial
    (fun _ _ _ hrely => ⟨hrely, trivial⟩) fun _ _ _ _ _ _ hreply =>
      ⟨⟨hreply, fun _ => trivial⟩, trivial⟩
  refine hmeets.mono ?_
  rintro out w' ⟨⟨hw', -⟩, hsnapshot⟩
  have hstored := hw'.resembles.stored hw
  refine ⟨hstored, ?_⟩
  cases out with
  | error failure => trivial
  | ok s =>
    cases hsnapshot
    change BoundPorts.ofBinds
      ((w'.inventory.snapshot l.service.tag).narrowTo l.loadBalancer).binds = _
    rw [Inventory.narrowTo_snapshot hstored, Inventory.ofBinds_shareSnapshot]

theorem check_meets_careful (hw : w.inventory.Stored) :
    (direct l).check.Meets (careful fresh l) (fun _ w' => w'.inventory.Stored) w := by
  have hsnapshot : ((direct l).source.snapshot l.loadBalancer).Meets (careful fresh l)
      (fun out w' => w'.inventory.Stored ∧
        Returning (fun s w' => s.Tells l w'.inventory) out w') w :=
    (fetch_meets_careful hw).bind (fun _ _ h => h) fun _ _ h => ⟨h.1, trivial⟩
  refine hsnapshot.bind ?_ fun _ _ h => h.1
  rintro s w₁ ⟨hw₁, htells⟩ _ ⟨f, rfl⟩
  refine ⟨?_, ?_⟩
  · rintro _ ⟨⟩
    exact htells
  · rintro - _ rfl
    exact Meets.ofExcept hw₁

/-- Everything is forgotten before something is created or destroyed. -/
theorem converge_meets_careful (cycles : Nat) (hw : w.inventory.Stored) :
    ((direct l).converge cycles).Meets (careful fresh l) (fun _ w' => w'.inventory.Stored) w := by
  have hlook {α : Type} {p : Program α} {w : World} (hw : w.inventory.Stored)
      (h : p.Makes fun q => q.Looks ∧ q.Retains) :
      p.Meets (careful fresh l) (fun _ w' => w'.inventory.Stored) w :=
    (looks_meets_careful h).mono fun _ _ h => h.1.resembles.stored hw
  induction cycles generalizing w with
  | zero => exact hw
  | succ cycles ih =>
    rw [converge_succ]
    refine (hlook hw (.checkpoint ⟨trivial, trivial⟩)).bind (fun _ w₁ hw₁ => ?_) fun _ _ h => h
    refine (check_meets_careful hw₁).attempt fun out w₂ hw₂ => ?_
    split
    · have hprogressing : progressing.Makes fun q => q.Looks ∧ q.Retains :=
        ⟨⟨trivial, trivial⟩, fun _ => trivial⟩
      refine (hlook hw₂ hprogressing).bind (fun rs w₃ hw₃ => ?_) fun _ _ h => h
      exact (hlook hw₃ ((settle_polls _ _).mono fun _ hq => ⟨hq.looks, hq.creates.retains⟩)).bind
        (fun _ w₄ hw₄ => ih hw₄) fun _ _ h => h
    · exact hw₂
    next plan =>
      split
      · exact hw₂
      · rintro _ ⟨f, rfl⟩
        refine ⟨nofun, ?_⟩
        rintro - _ rfl
        have hact : ((direct l).act plan).Makes Request.Retains := by
          rw [act]
          split
          · exact (createAll_creates _ _ _).mono fun _ => Request.Creates.retains
          · exact (destroyAll_destroys _).mono fun _ => Request.Destroys.retains
        exact
          (retains_meets_careful (w := { w₂.withFaults f with latest := none }) hact hw₂ rfl).bind
            (fun _ w₃ hw₃ => ih hw₃.1) fun _ _ h => h.1

theorem reconcile_meets_careful (hw : w.inventory.Stored) :
    (direct l).reconcile.Meets (careful fresh l) (fun _ w' => w'.inventory.Stored) w := by
  refine (converge_meets_careful _ hw).attempt fun out w' hout => ?_
  cases out <;> exact hout

/-- A status tells the ports that are bound, whether the latest check is remembered or not. -/
theorem status_meets_careful (hw : UpToDate l w.memory w.latest) :
    (direct l).status.Meets (careful fresh l) (Returning fun bound w' =>
      bound = w'.inventory.boundPorts l.service.tag l.loadBalancer) w := by
  have hlatest : (direct l).latest.Meets (careful fresh l)
      (Returning fun s w' => s.Tells l w'.inventory) w := by
    rintro _ ⟨f, rfl⟩
    refine ⟨trivial, ?_⟩
    rintro reply _ ⟨rfl, rfl⟩
    cases hl : (w.withFaults f).latest with
    | some s => exact hw.tells s hl
    | none =>
      exact (fetch_meets_careful (w := w.withFaults f) hw.stored).bind (fun _ _ h => h.2)
        fun _ _ _ => trivial
  refine hlatest.bind (fun s w₁ htells => ?_) fun _ _ _ => trivial
  rintro _ ⟨f, rfl⟩
  refine ⟨?_, ?_⟩
  · rintro _ ⟨⟩
    exact htells
  · rintro - _ rfl
    exact htells

end Reconciliation

open Schedule Reconciliation

inductive Operation (l : Layout) : {α : Type} → Program α → Prop
  | check : Operation l (direct l).check
  | reconcile : Operation l (direct l).reconcile
  | status : Operation l (direct l).status

/-- What becomes of a memory, and of what a reconciliation remembers, when the reconciliation is
used. The provider misbehaves now in one way and now in another, and each operation may be canceled
at any time, or given up before it has come to its end. -/
inductive Usage (fresh : Nat → Identifier) (l : Layout) (m : Memory) :
    Memory → Option Snapshot → Prop
  | new : Usage fresh l m m none
  | set {m' : Memory} {latest : Option Snapshot} (h : Usage fresh l m m' latest)
      (setting : Faults.Setting) : Usage fresh l m (m'.configure [setting]) latest
  | operate {α : Type} {p : Program α} {s : Schedule Memory α} {latest : Option Snapshot}
      (h : Usage fresh l m s.provider latest) (hp : Operation l p) (hs : s.Starts p latest)
      (os : List Occurrence) {t : Task α} (ht : (s.pass fresh os).tasks = [t]) :
      Usage fresh l m (s.pass fresh os).provider t.latest

theorem World.careful_withstands {post : α → World → Prop}
    (hpost : ∀ a w f, post a w → post a (w.withFaults f)) :
    Withstands (fun _ => True) (careful fresh l) (fun w => UpToDate l w.memory w.latest)
      (Returning post) where
  set w setting _ hw := ⟨⟨w.memory.faults.set setting, rfl⟩, ⟨hw.stored, hw.tells⟩⟩
  trans := by
    rintro w _ _ ⟨f, rfl⟩ ⟨f', rfl⟩
    exact ⟨f', rfl⟩
  post := by
    rintro out w _ h ⟨f, rfl⟩
    cases out with
    | ok a => exact hpost a w f h
    | error failure => trivial

/-- As long as an operation takes care, what is remembered is up to date at any moment. -/
theorem World.Follows.of_careful {p : Program α} {s : Schedule Memory α} {post : α → World → Prop}
    (hw : UpToDate l s.provider latest) (hs : s.Starts p latest)
    (hp : p.Meets (careful fresh l) (Returning post) (.start s.provider latest))
    (hpost : ∀ a w f, post a w → post a (w.withFaults f)) (os : List Occurrence) :
    Follows (careful fresh l) (fun w => UpToDate l w.memory w.latest) (Returning post)
      (s.pass fresh os) :=
  (Follows.of_starts hs hw hp).pass careful_sustained (careful_withstands hpost) os fun o _ => by
    cases o <;> trivial

/-- Whatever a reconciliation has been used for, what it remembers is up to date. -/
theorem Usage.upToDate (hm : m.inventory.Stored) (h : Usage fresh l m m' latest) :
    UpToDate l m' latest := by
  induction h with
  | new => exact ⟨hm, nofun⟩
  | set h setting ih => exact ⟨ih.stored, ih.tells⟩
  | @operate α p s latest h hp hs os t ht ih =>
    have hmeets :
        p.Meets (careful fresh l) (Returning fun _ _ => True) (.start s.provider latest) := by
      cases hp with
      | check => exact (check_meets_careful ih.stored).mono fun out _ _ => by cases out <;> trivial
      | reconcile =>
        exact (reconcile_meets_careful ih.stored).mono fun out _ _ => by cases out <;> trivial
      | status => exact (status_meets_careful ih).mono fun out _ _ => by cases out <;> trivial
    obtain ⟨t', w, ht', ⟨hmemory, hlatest⟩, hw, -⟩ :=
      Follows.of_careful ih hs hmeets (fun _ _ _ _ => trivial) os
    cases ht.symm.trans ht'
    rw [← hmemory, ← hlatest]
    exact hw

/-- Whatever a reconciliation that fetches its own snapshots has been used for, and whatever has
come of it: a status that succeeds tells exactly the ports that are bound at that moment. -/
theorem Reconciliation.status_eq_boundPorts {s : Schedule Memory BoundPorts} {bound : BoundPorts}
    {os : List Occurrence} (hm : m.inventory.Stored) (hu : Usage fresh l m s.provider before)
    (hs : s.Starts (direct l).status before) (hok : (s.pass fresh os).Ends (.ok bound) after) :
    bound = (s.pass fresh os).provider.inventory.boundPorts l.service.tag l.loadBalancer := by
  have hw := hu.upToDate hm
  obtain ⟨w, hmemory, -, -, hbound⟩ :=
    (Follows.of_careful hw hs (status_meets_careful hw) (fun _ _ _ h => h) os).exists_of_ends hok
  rw [← hmemory]
  exact hbound

namespace Sample

def unwanted : Inventory where
  loadBalancers := .ofList [⟨"lb-1"⟩]
  objects := .ofList
    [(⟨"b-1"⟩, .backend ⟨some ⟨"b-1"⟩, "old.web", ⟨"lb-1"⟩, .tcp, .tcp, .ready false⟩),
      (⟨"f-1"⟩, .frontend ⟨some ⟨"f-1"⟩, "old.web", ⟨"lb-1"⟩, ⟨"b-1"⟩, .tcp, .ready false⟩),
      (⟨"i-1"⟩, .bind
        ⟨some ⟨"i-1"⟩, "a.old.web", ⟨"f-1"⟩, .v4 ⟨[10, 0, 0, 7], rfl⟩, 81, .ready false⟩),
      (⟨"i-2"⟩, .bind
        ⟨some ⟨"i-2"⟩, "b.old.web", ⟨"f-1"⟩, .v4 ⟨[10, 0, 0, 7], rfl⟩, 82, .ready false⟩)]
  tags := .ofList [(.ofService "1", .ofList [⟨"b-1"⟩, ⟨"f-1"⟩, ⟨"i-1"⟩, ⟨"i-2"⟩])]

def starting {α : Type} (m : Memory) (latest : Option Snapshot) (p : Program α) :
    Schedule Memory α :=
  { (Schedule.initial m .empty : Schedule Memory α) with tasks := [⟨p, false, latest, none, none⟩] }

theorem starting_provider {α : Type} (m : Memory) (latest : Option Snapshot) (p : Program α) :
    (starting m latest p).provider = m := rfl

theorem starting_starts {α : Type} (m : Memory) (latest : Option Snapshot) (p : Program α) :
    (starting m latest p).Starts p latest := ⟨false, rfl⟩

def ongoing : List Occurrence := List.replicate 20 (.move (.step 0))

def checked : Schedule Memory Plan :=
  (starting (.ofInventory unwanted 0) none (Reconciliation.direct layout).check).pass .scattered
    ongoing

def remembered : Option Snapshot := checked.tasks.head?.bind (·.latest)

def interrupted : Schedule Memory Unit :=
  (starting checked.provider remembered (Reconciliation.direct layout).reconcile).pass .scattered
    (.set (.rateLimitAfterDestroys (some 1)) :: ongoing)

def inquiring : Schedule Memory BoundPorts :=
  starting interrupted.provider none (Reconciliation.direct layout).status

def told : Schedule Memory BoundPorts := inquiring.pass .scattered ongoing

def relearned : Option Snapshot := told.tasks.head?.bind (·.latest)

def bound : BoundPorts := .ofList [(.v4 ⟨[10, 0, 0, 7], rfl⟩, .ofList [82])]

end Sample

theorem sample_status_eq_boundPorts :
    (Memory.ofInventory Sample.unwanted 0).inventory.Stored ∧
    Usage .scattered Sample.layout (.ofInventory Sample.unwanted 0) Sample.inquiring.provider none ∧
    Sample.inquiring.Starts (Reconciliation.direct Sample.layout).status none ∧
    Sample.told.Ends (.ok Sample.bound) Sample.relearned ∧
    Sample.bound = Sample.told.provider.inventory.boundPorts Sample.layout.service.tag
      Sample.layout.loadBalancer := by
  have hm : (Memory.ofInventory Sample.unwanted 0).inventory.Stored := by decide +kernel
  have hchecked : Usage .scattered Sample.layout (.ofInventory Sample.unwanted 0)
      Sample.checked.provider Sample.remembered := by
    obtain ⟨t, ht⟩ : ∃ t, Sample.checked.tasks = [t] := List.length_eq_one_iff.1 (by decide +kernel)
    have hlatest : Sample.remembered = t.latest := by rw [Sample.remembered, ht]; rfl
    rw [hlatest]
    unfold Sample.checked at ht ⊢
    exact .operate .new .check (Sample.starting_starts _ _ _) _ ht
  have hinterrupted : Usage .scattered Sample.layout (.ofInventory Sample.unwanted 0)
      Sample.interrupted.provider none := by
    have hstopped :
        Sample.interrupted.Ends (.error (.rateLimited [⟨"i-2"⟩, ⟨"f-1"⟩, ⟨"b-1"⟩])) none := by
      decide +kernel
    obtain ⟨t, ht, -, hlatest⟩ := hstopped
    rw [← hlatest]
    unfold Sample.interrupted at ht ⊢
    rw [← Sample.starting_provider Sample.checked.provider Sample.remembered
      (Reconciliation.direct Sample.layout).reconcile] at hchecked
    exact .operate hchecked .reconcile (Sample.starting_starts _ _ _) _ ht
  have hs : Sample.inquiring.Starts (Reconciliation.direct Sample.layout).status none :=
    Sample.starting_starts _ _ _
  have hu : Usage .scattered Sample.layout (.ofInventory Sample.unwanted 0)
      Sample.inquiring.provider none := by
    rw [Sample.inquiring, Sample.starting_provider]
    exact hinterrupted
  have hok : Sample.told.Ends (.ok Sample.bound) Sample.relearned := by decide +kernel
  refine ⟨hm, hu, hs, hok, ?_⟩
  unfold Sample.told at hok ⊢
  exact Reconciliation.status_eq_boundPorts hm hu hs hok

end BalancerSync
