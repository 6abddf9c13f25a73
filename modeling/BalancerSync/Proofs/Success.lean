import BalancerSync.Proofs.BoundPorts
import BalancerSync.Proofs.Fetch
import BalancerSync.Proofs.Requests

namespace BalancerSync

open Program Engine World

variable {fresh : Nat → Identifier} {w w' : World} {l : Layout}

abbrev World.shareSnapshot (w : World) (l : Layout) : Snapshot :=
  w.inventory.shareSnapshot l.service.tag l.loadBalancer

structure World.Lone (fresh : Nat → Identifier) (cancelable : Prop) (e : Environment World) :
    Prop where
  rely : ∀ w w', e.rely w w' → w' = w
  allows : ∀ q w, q.Looks → e.allows q w
  replies : ∀ q w reply w', e.replies q w reply w' → Acts fresh cancelable q w reply w'

theorem World.adverse_lone : Lone fresh True (adverse fresh) :=
  ⟨fun _ _ h => h, fun _ _ _ => trivial, fun _ _ _ _ h => h⟩

theorem World.looks_of_fetching {tag : Tag} {cancelable : Prop} {q : Request}
    (h : (fetching fresh tag cancelable).allows q w) : q.Looks := by
  cases q with
  | isCanceled => trivial
  | watch c =>
    cases c with
    | get | list => trivial
    | create | destroy | tag => exact h
  | call | sleep | draw | latest | remember | enter | exit | arrive | release | leave => exact h.elim

theorem World.fetch_meets_lone {cancelable : Prop} {e : Environment World}
    (he : Lone fresh cancelable e) (tag : Tag) (w : World) :
    (fetch tag).Meets e (Fetched tag cancelable w) w := by
  have h : (fetch tag).Meets e (fun r w' => Fetched tag cancelable w r w' ∧ True) w :=
    (fetch_meets w).transfer trivial (fun w w' _ h => ⟨he.rely w w' h, trivial⟩)
      (fun q w _ hq => he.allows q w (looks_of_fetching hq))
      (fun q w reply w' _ _ h => ⟨he.replies q w reply w' h, trivial⟩)
  exact h.mono fun _ _ h => h.1

def World.Snapped (l : Layout) (cancelable : Prop) (w : World) :
    Except Failure Snapshot → World → Prop
  | .ok s, w' => Polled l.service.tag w w' ∧ s = w'.shareSnapshot l ∧
    w'.memory.journal.listings = w.memory.journal.listings + 1
  | .error failure, w' => Polled l.service.tag w w' ∧ ((failure = .canceled ∧ cancelable) ∨
    ∃ refusal, failure = .provider refusal ∧ w.memory.faults.failListing = true)

theorem Engine.Fetched.snapped {cancelable : Prop} {s : Snapshot} (hw : w.inventory.Stored)
    (h : Fetched l.service.tag cancelable w (.ok s) w') :
    Snapped l cancelable w (.ok (s.narrowTo l.loadBalancer)) w' := by
  obtain ⟨hp, rfl, hl⟩ := h
  exact ⟨hp, Inventory.narrowTo_snapshot (hp.2.stored hw), hl⟩

namespace Reconciliation

section

variable {cancelable : Prop} {e : Environment World}

theorem snapshot_meets_lone (he : Lone fresh cancelable e) (hw : w.inventory.Stored) :
    ((direct l).source.snapshot l.loadBalancer).Meets e (Snapped l cancelable w) w :=
  (fetch_meets_lone he l.service.tag w).bind (fun _ _ h => Fetched.snapped hw h) fun _ _ h => h

def Checked (l : Layout) (cancelable : Prop) (w : World) (out : Except Failure Plan)
    (w' : World) : Prop :=
  Memory.Polled l.service.tag w.memory w'.memory ∧
  ((out = l.plan (w'.shareSnapshot l) ∧
      w' = { w with memory := w'.memory, latest := some (w'.shareSnapshot l) } ∧
      w'.memory.journal.listings = w.memory.journal.listings + 1) ∨
    (w' = { w with memory := w'.memory } ∧ ((out = .error .canceled ∧ cancelable) ∨
      ∃ refusal, out = .error (.provider refusal) ∧ w.memory.faults.failListing = true)))

theorem check_meets_lone (he : Lone fresh cancelable e) (hw : w.inventory.Stored) :
    (direct l).check.Meets e (Checked l cancelable w) w := by
  refine (snapshot_meets_lone he hw).bind ?_ ?_
  · rintro s w₁ ⟨⟨hw₁, hp⟩, rfl, hl⟩
    intro w₂ hrely
    cases he.rely w₁ w₂ hrely
    refine ⟨he.allows _ _ trivial, fun reply w₃ hreply => ?_⟩
    cases he.replies _ _ _ _ hreply
    refine Meets.ofExcept ⟨hp, .inl ⟨rfl, ?_, hl⟩⟩
    rw [hw₁]
  · rintro failure w₁ ⟨⟨hw₁, hp⟩, hf⟩
    refine ⟨hp, .inr ⟨hw₁, ?_⟩⟩
    rcases hf with ⟨rfl, hc⟩ | ⟨refusal, rfl, hf⟩
    · exact .inl ⟨rfl, hc⟩
    · exact .inr ⟨refusal, rfl, hf⟩

end

theorem check_meets (hw : w.inventory.Stored) :
    (direct l).check.Meets (adverse fresh) (Checked l True w) w := check_meets_lone adverse_lone hw

end Reconciliation

theorem Memory.stored_answer {m : Memory} (hm : m.inventory.Stored) (c : Call) :
    ((Memory.provider fresh).answer c m).2.inventory.Stored := by
  cases c with
  | get kind id =>
    have hgot := m.got kind id
    change (m.get kind id).2.inventory.Stored
    generalize m.get kind id = out at hgot
    cases hgot with
    | missing hk => exact hm
    | settled hr hk hs => exact hm
    | counted hr hk hs hp => exact hm
    | deployed hr hk hs hp => exact hm.put (by simpa using hm id _ hr)
  | list tag =>
    have hlisted := m.wasListed tag
    change (m.list tag).2.inventory.Stored
    generalize m.list tag = out at hlisted
    cases hlisted <;> exact hm
  | create r =>
    have hcreated := m.wasCreated fresh r
    change (m.create fresh r).2.inventory.Stored
    generalize m.create fresh r = out at hcreated
    cases hcreated with
    | refused refusal h => exact hm
    | created h => exact hm.put (by simp)
  | destroy kind id =>
    have hdestroyed := m.wasDestroyed kind id
    change (m.destroy kind id).2.inventory.Stored
    generalize m.destroy kind id = out at hdestroyed
    cases hdestroyed with
    | refused refusal m' hv hj hi h => exact hv ▸ hm
    | destroyed hk hr => exact hm.remove
  | tag id tag =>
    have htagged := m.wasTagged id tag
    change (m.tag id tag).2.inventory.Stored
    generalize m.tag id tag = out at htagged
    cases htagged <;> exact hm

theorem World.Acts.stored {cancelable : Prop} {q : Request} {reply : q.Reply}
    (h : Acts fresh cancelable q w reply w') (hw : w.inventory.Stored) : w'.inventory.Stored := by
  rcases h.memory with heq | ⟨c, -, heq⟩
  · rw [World.inventory, heq]
    exact hw
  · rw [World.inventory, heq]
    exact Memory.stored_answer hw c

namespace Reconciliation

def act (r : Reconciliation) (plan : Plan) : Program Unit :=
  if plan.destroy.isEmpty then createAll r.tag r.layout.settings.backoff plan.create
  else destroyAll plan.destroy

theorem converge_succ (r : Reconciliation) (cycles : Nat) :
    r.converge (cycles + 1) = (checkpoint >>= fun _ => r.check.attempt >>= fun out =>
      match out with
      | .error (.resourcesProgressing _) => progressing >>= fun resources =>
        settle r.layout.settings.backoff resources >>= fun _ => r.converge cycles
      | .error failure => fail failure
      | .ok plan =>
        if plan.isEmpty then done ()
        else request (.remember none) >>= fun _ => r.act plan >>= fun _ => r.converge cycles) := by
  rw [converge]
  congr 1
  funext _
  congr 1
  funext out
  rcases out with failure | plan
  · cases failure <;> rfl
  · by_cases he : plan.isEmpty = true
    · simp only [if_pos he]
      rfl
    · by_cases hd : plan.destroy.isEmpty = true
      · simp only [if_neg he, act, if_pos hd]
      · simp only [if_neg he, act, if_neg hd]

/-- The latest check has seen what is there, and that there is nothing to do. -/
def Settled (l : Layout) (w : World) : Prop :=
  w.inventory.Stored ∧ w.latest = some (w.shareSnapshot l) ∧
    ∃ p : Plan, l.plan (w.shareSnapshot l) = .ok p ∧ p.isEmpty = true

def OnSuccess {α : Type} (post : World → Prop) : Except Failure α → World → Prop
  | .ok _, w => post w
  | .error _, _ => True

theorem Settled.serves (h : Settled l w) : l.Serves w.inventory := by
  obtain ⟨hw, -, p, hp, hempty⟩ := h
  exact Layout.serves_of_plan_isEmpty hw hp hempty

theorem Settled.status_eq_ready (h : Settled l w) {id : Identifier} {r : Resource}
    (hr : w.inventory.Owns l.service.tag l.loadBalancer id r) : r.status = .ready false := by
  obtain ⟨hw, -, p, hp, hempty⟩ := h
  have hs := w.inventory.shareSnapshot_classified l.service.tag l.loadBalancer hw
  have hmem := (Inventory.mem_share_resources_iff hw).2 ⟨id, hw id r hr.1, hr⟩
  rcases Layout.plan_eq_ok_iff.1 hp with ⟨hf, rfl⟩ | ⟨hf, hpr, -⟩
  · have := Layout.failedWithDependents_ne_nil hf
    simp [Plan.isEmpty, this] at hempty
  · exact Layout.ready_of_not_failed_of_not_progressing hs hf hpr r hmem

/-- What belongs to the load balancer stays as it is when it is looked at. -/
theorem Settled.shareSnapshot_eq (h : Settled l w) {w₁ : World} (hv : w.inventory.Agrees w₁.inventory)
    (hp : Memory.Polled l.service.tag w₁.memory w'.memory) :
    w'.shareSnapshot l = w.shareSnapshot l := by
  have hshare : w'.inventory.share l.service.tag l.loadBalancer =
      w₁.inventory.share l.service.tag l.loadBalancer := by
    apply hp.share_eq
    intro id r hr
    simp [h.status_eq_ready (hv.owns_iff.1 hr)]
  rw [World.shareSnapshot, Inventory.shareSnapshot, hshare, hv.share_eq]
  rfl

end Reconciliation

namespace Sample

/-- A service with one port, and a load balancer on which an old backend has failed. -/
def layout : Layout where
  service :=
    { name := "web", uid := "1", externalAddresses := [.v4 ⟨[10, 0, 0, 1], rfl⟩]
      ports := .ofList [("http", ⟨8080, 80⟩)]
      endpoints := [⟨"node", .v4 ⟨[10, 0, 0, 2], rfl⟩⟩] }
  loadBalancer := ⟨"lb-1"⟩
  settings := .standard

def inventory : Inventory where
  loadBalancers := .ofList [⟨"lb-1"⟩, ⟨"lb-2"⟩]
  objects := .ofList
    [(⟨"b-1"⟩, .backend ⟨some ⟨"b-1"⟩, "old.web", ⟨"lb-1"⟩, .tcp, .tcp, .ready true⟩),
      (⟨"f-1"⟩, .frontend ⟨some ⟨"f-1"⟩, "old.web", ⟨"lb-1"⟩, ⟨"b-1"⟩, .tcp, .ready false⟩),
      (⟨"b-2"⟩, .backend ⟨some ⟨"b-2"⟩, "mail", ⟨"lb-1"⟩, .tcp, .tcp, .ready false⟩)]
  tags := .ofList
    [(.ofService "1", .ofList [⟨"b-1"⟩, ⟨"f-1"⟩]), (.ofService "2", .ofList [⟨"b-2"⟩])]

def memory : Memory :=
  { Memory.ofInventory inventory 0 with faults := { Faults.none with readyAfterPolls := 1 } }

def before : Schedule Memory Unit :=
  (Schedule.initial memory .empty).spawn (Reconciliation.direct layout).reconcile false

def moves : List Schedule.Move := List.replicate 70 (.step 0)

def after : Schedule Memory Unit := before.play (Memory.provider .scattered) moves

def latest : Option Snapshot := after.tasks.head?.bind (·.latest)

end Sample

end BalancerSync
