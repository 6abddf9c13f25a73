import BalancerSync.Engine.Reconciliation
import BalancerSync.Provider.Memory
import BalancerSync.Provider.Scripted
import BalancerSync.Run.Alone

namespace BalancerSync.Scenario

structure Site where
  memory : Memory
  script : Script

namespace Site

def ofInventory (inventory : Inventory) : Site := ⟨.ofInventory inventory 0, .empty⟩

instance : Inhabited Site := ⟨ofInventory .empty⟩

end Site

/-- The latest site is the current one. All sites take their identifiers from one sequence. -/
structure Sites where
  sites : List Site
  issued : Nat

namespace Sites

def current (s : Sites) : Nat := s.sites.length - 1

def onMemory {α : Type} (s : Sites) (i : Nat) (f : Memory → α × Memory) : α × Sites :=
  let site := s.sites.getD i default
  let (a, memory) := f { site.memory with issued := s.issued }
  (a, { sites := s.sites.set i { site with memory }, issued := memory.issued })

def provider (i : Nat) : Provider Sites where
  answer c s :=
    match (s.sites.getD i default).script.answer? c with
    | some answer => (answer, s)
    | none => s.onMemory i ((Memory.provider Identifier.scattered).answer c)

end Sites

structure Trigger where
  /-- How much time has to go by, in this step or in later ones. -/
  afterMs : Option Nat
  atCreate : Option Nat
  atDestroy : Option Nat

namespace Trigger

def never : Trigger := ⟨none, none, none⟩

def count (p : Call → Bool) (events : List Event) : Nat :=
  events.countP fun e =>
    match e with
    | .called c => p c
    | _ => false

def reaches (n : Nat) (p : Call → Bool) (events : List Event) : Bool :=
  0 < n && n ≤ count p events

def cancels (t : Trigger) (events : List Event) : Bool :=
  t.atCreate.any (reaches · Call.isCreate events)
    || t.atDestroy.any (reaches · Call.isDestroy events)

/-- When a program that is started at the given time is canceled, if it was not to be before. -/
def cancelAt (t : Trigger) (clock : Nat) (before : Option Nat) : Option Nat :=
  match before, t.afterMs.map (clock + ·) with
  | some time, some other => some (min time other)
  | time, other => time <|> other

end Trigger

structure Retriever where
  tag : Tag
  site : Nat
  meeting : Rendezvous Identifier Shared

structure Kept where
  reconciliation : Reconciliation
  site : Nat
  retriever : Option Nat
  canceled : Bool
  /-- When it is canceled. -/
  cancelAt : Option Nat
  latest : Option Snapshot

namespace Kept

def start (reconciliation : Reconciliation) (site : Nat) (retriever : Option Nat) : Kept :=
  ⟨reconciliation, site, retriever, false, none, none⟩

def cancel (k : Kept) : Kept := { k with canceled := true, cancelAt := none }

end Kept

/-- Steps are taken one after the other with a provider in memory, and reconciliations are kept by
name from step to step. -/
structure Session where
  sites : Sites
  draws : List Binary64
  /-- Milliseconds since the beginning. -/
  clock : Nat
  retrievers : List Retriever
  /-- The latest retriever of each name. -/
  retrieverNames : OrderedMap String Nat
  reconciliations : OrderedMap String Kept

inductive Session.SourceChoice
  | direct
  /-- A direct source that nobody can leave. -/
  | unleavable
  | retriever (name : String)

inductive Session.Step
  | addLoadBalancer (id : Identifier)
  | configure (settings : List Faults.Setting)
  | insert (resource : Resource) (tags : List Tag)
  | setStatus (id : Identifier) (status : Status)
  | objects (kind : Kind)
  | tagged (tag : Tag)
  | inventory
  | journal
  /-- Goes on with a new provider that has the inventory of the current one. -/
  | reload
  | script (answers : Script)
  | call (c : Call)
  | createTagged (resource : Resource) (tag : Tag)
  | fetch (tag : Tag) (lb : Option Identifier) (canceled : Bool)
  | waitReady (resources : List Resource) (backoff : Backoff) (canceled : Bool) (trigger : Trigger)
  | keep (name : String) (layout : Layout) (source : Session.SourceChoice)
  | check (name : String)
  | reconcile (name : String) (trigger : Trigger)
  | status (name : String)
  | cancel (name : String)
  | retriever (name : String) (tag : Tag) (lbs : List Identifier)
  | retrieverInfo (name : String)
  | leave (name : String) (lb : Identifier)

inductive Session.Answer
  | ok
  | identifier (id : Identifier)
  | number (n : Nat)
  | resource (r : Resource)
  | resources (rs : List Resource)
  | listing (entries : List Listed)
  | inventory (v : Inventory)
  | journal (j : Journal)
  | plan (p : Plan)
  | bound (ports : BoundPorts)
  | snapshot (s : Snapshot)
  | progress (parties rounds : Nat)
  | refused (refusal : Refusal)
  | failed (failure : Failure)
  /-- The step would never end. -/
  | stalled
  /-- No reconciliation or retriever has the name. -/
  | unknownName

namespace Session.Answer

def ofCall : (c : Call) → c.Answer → Session.Answer
  | _, .error refusal => refused refusal
  | .get _ _, .ok r => resource r
  | .list _, .ok entries => listing entries
  | .create _, .ok id => identifier id
  | .destroy _ _, .ok () => ok
  | .tag _ _, .ok () => ok

def ofResult {α : Type} (f : α → Session.Answer) :
    Option (Except Failure α) → Session.Answer
  | none => stalled
  | some (.error failure) => failed failure
  | some (.ok a) => f a

end Session.Answer

namespace Session

def initial (inventory : Inventory) (loadBalancers : List Identifier)
    (faults : List Faults.Setting) (draws : List Binary64) : Session :=
  let memory := loadBalancers.foldl Memory.addLoadBalancer (.ofInventory inventory 0)
  { sites := ⟨[⟨memory.configure faults, .empty⟩], 0⟩
    draws
    clock := 0
    retrievers := []
    retrieverNames := ∅
    reconciliations := ∅ }

def site (s : Session) : Site := s.sites.sites.getD s.sites.current default

def onMemory {α : Type} (s : Session) (f : Memory → α × Memory) : α × Session :=
  let (a, sites) := s.sites.onMemory s.sites.current f
  (a, { s with sites })

def change (s : Session) (f : Memory → Memory) : Session := (s.onMemory fun m => ((), f m)).2

def script (s : Session) (answers : Script) : Session :=
  { s with sites :=
    { s.sites with sites := s.sites.sites.modify s.sites.current fun site =>
      { site with script := answers } } }

def reload (s : Session) : Session :=
  { s with sites :=
    { s.sites with sites := s.sites.sites ++ [.ofInventory s.site.memory.inventory] } }

def cancelDue (s : Session) (isDue : Nat → Bool) : Session :=
  { s with reconciliations :=
    s.reconciliations.mapValues fun _ k => if k.cancelAt.any isDue then k.cancel else k }

def surroundings (s : Session) (canceled : Bool) (cancelAt : Option Nat) : Surroundings Sites :=
  { Surroundings.initial s.sites with canceled, clock := s.clock, cancelAt, draws := s.draws }

/-- Whether a time has come when a program ends. The instant at which the program is canceled
counts, the one at which its last sleep ends does not. -/
def hasCome (before after : Surroundings Sites) (time : Nat) : Bool :=
  time < after.clock || (time = after.clock && before.cancelAt ≠ after.cancelAt)

/-- Takes back what a program leaves behind. All time goes by where it waits for ever. -/
def takeBack {α : Type} (s : Session) (before after : Surroundings Sites)
    (result : Option (Except Failure α)) : Session :=
  { s with sites := after.provider, draws := after.draws, clock := after.clock }.cancelDue
    fun time => result.isNone || hasCome before after time

/-- Runs a program with the current provider. -/
def run {α : Type} (s : Session) (canceled : Bool) (trigger : Trigger) (p : Program α) :
    Option (Except Failure α) × Session :=
  let provider := Sites.provider s.sites.current
  let before := s.surroundings canceled (trigger.cancelAt s.clock none)
  let (result, after) :=
    p.run (Surroundings.handler ⟨provider, provider, trigger.cancels⟩) before
  (result, s.takeBack before after result)

def runKept {α : Type} (s : Session) (name : String) (k : Kept) (trigger : Trigger)
    (p : Program α) : Option (Except Failure α) × Session :=
  let retriever := k.retriever.bind (s.retrievers[·]?)
  let own := Sites.provider k.site
  let shared := (retriever.map fun r => Sites.provider r.site).getD own
  let meeting := (retriever.map (·.meeting)).getD .empty
  let cancelAt := trigger.cancelAt s.clock k.cancelAt
  let before := { s.surroundings k.canceled cancelAt with latest := k.latest, meeting }
  let (result, after) := p.run (Surroundings.handler ⟨own, shared, trigger.cancels⟩) before
  let kept :=
    { k with canceled := after.canceled, cancelAt := after.cancelAt, latest := after.latest }
  let retrievers :=
    match k.retriever with
    | none => s.retrievers
    | some i => s.retrievers.modify i fun r => { r with meeting := after.meeting }
  let s := { s with retrievers, reconciliations := s.reconciliations.insert name kept }
  (result, s.takeBack before after result)

/-- Runs the program of a kept reconciliation, if there is one of the name. -/
def withKept {α : Type} (s : Session) (name : String) (trigger : Trigger)
    (p : Reconciliation → Program α) (f : α → Answer) : Answer × Session :=
  match s.reconciliations.get? name with
  | none => (.unknownName, s)
  | some k =>
    let (result, s) := s.runKept name k trigger (p k.reconciliation)
    (.ofResult f result, s)

def keep (s : Session) (name : String) (layout : Layout) (source : Engine.Source)
    (retriever : Option Nat) : Session :=
  { s with reconciliations :=
    s.reconciliations.insert name (.start ⟨source, layout⟩ s.sites.current retriever) }

def addRetriever (s : Session) (name : String) (tag : Tag) (lbs : List Identifier) :
    Nat × Session :=
  let meeting := lbs.foldl (fun m lb => (m.register lb).2) Rendezvous.empty
  (meeting.parties,
    { s with
      retrievers := s.retrievers ++ [⟨tag, s.sites.current, meeting⟩]
      retrieverNames := s.retrieverNames.insert name s.retrievers.length })

def retriever? (s : Session) (name : String) : Option (Nat × Retriever) := do
  let i ← s.retrieverNames.get? name
  return (i, ← s.retrievers[i]?)

/-- A direct source that nobody can leave. -/
def unleavable (tag : Tag) : Engine.Source :=
  { Engine.Source.direct tag with finish := fun lb => .fail (.unregisteredLoadBalancer lb) }

def step (s : Session) : Step → Answer × Session
  | .addLoadBalancer id => (.identifier id, s.change fun m => m.addLoadBalancer id)
  | .configure settings => (.ok, s.change fun m => m.configure settings)
  | .insert r tags =>
    let (id, s) := s.onMemory fun m => m.insert Identifier.scattered r tags
    (.identifier id, s)
  | .setStatus id status => (.ok, s.change fun m => m.setStatus id status)
  | .objects kind => (.resources (s.site.memory.objectsOf kind), s)
  | .tagged tag => (.resources ((s.site.memory.inventory.tagged tag).map (·.2)), s)
  | .inventory => (.inventory s.site.memory.inventory, s)
  | .journal => (.journal s.site.memory.journal, s)
  | .reload => (.ok, s.reload)
  | .script answers => (.ok, s.script answers)
  | .call c =>
    let (answer, sites) := (Sites.provider s.sites.current).answer c s.sites
    (.ofCall c answer, { s with sites })
  | .createTagged r tag =>
    let (result, s) := s.run false .never (Engine.createTagged tag r)
    (.ofResult .resource result, s)
  | .fetch tag lb canceled =>
    let snapshot :=
      match lb with
      | none => Engine.fetch tag
      | some lb => (Engine.Source.direct tag).snapshot lb
    let (result, s) := s.run canceled .never snapshot
    (.ofResult .snapshot result, s)
  | .waitReady resources backoff canceled trigger =>
    let (result, s) := s.run canceled trigger (Engine.waitReady backoff resources)
    (.ofResult (fun () => .ok) result, s)
  | .keep name layout source =>
    let tag := layout.service.tag
    match source with
    | .direct => (.ok, s.keep name layout (.direct tag) none)
    | .unleavable => (.ok, s.keep name layout (unleavable tag) none)
    | .retriever retriever =>
      match s.retriever? retriever with
      | none => (.unknownName, s)
      | some (i, r) => (.ok, s.keep name layout (.shared r.tag) (some i))
  | .check name => s.withKept name .never Reconciliation.check .plan
  | .reconcile name trigger =>
    s.withKept name trigger Reconciliation.reconcile fun () => .ok
  | .status name => s.withKept name .never Reconciliation.status .bound
  | .cancel name =>
    match s.reconciliations.get? name with
    | none => (.unknownName, s)
    | some k =>
      (.ok,
        { s with reconciliations := s.reconciliations.insert name k.cancel })
  | .retriever name tag lbs =>
    let (parties, s) := s.addRetriever name tag lbs
    (.number parties, s)
  | .retrieverInfo name =>
    match s.retriever? name with
    | none => (.unknownName, s)
    | some (_, r) => (.progress r.meeting.parties r.meeting.rounds, s)
  | .leave name lb =>
    match s.retriever? name with
    | none => (.unknownName, s)
    | some (i, r) =>
      match r.meeting.leave lb with
      | (.error denial, _) => (.failed (Engine.Source.denied lb denial), s)
      | (.ok (), meeting) =>
        (.ok, { s with retrievers := s.retrievers.set i { r with meeting } })

end Session

end BalancerSync.Scenario
