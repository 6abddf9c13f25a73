import BalancerSync.Inventory
import BalancerSync.Provider

namespace BalancerSync

/-- Misbehaviour of a provider. -/
structure Faults where
  /-- How often an object is looked at before it is deployed. -/
  readyAfterPolls : Nat
  /-- How many attempts to destroy are let through. -/
  rateLimitAfterDestroys : Option Nat
  /-- Names that are not created. -/
  rejectCreate : List String
  /-- Names whose deployment fails. -/
  deployFailed : List String
  /-- Objects that are not destroyed. -/
  rejectDestroy : List Identifier
  /-- Objects that are not destroyed at the next attempt. -/
  flakyDestroy : List Identifier
  failTag : Bool
  failListing : Bool
  /-- Whether an empty listing is refused. -/
  unprocessableEmptyListing : Bool
  deriving DecidableEq

namespace Faults

def none : Faults where
  readyAfterPolls := 0
  rateLimitAfterDestroys := .none
  rejectCreate := []
  deployFailed := []
  rejectDestroy := []
  flakyDestroy := []
  failTag := false
  failListing := false
  unprocessableEmptyListing := true

/-- One way to misbehave, and how. -/
inductive Setting
  | readyAfterPolls (polls : Nat)
  | rateLimitAfterDestroys (limit : Option Nat)
  | rejectCreate (names : List String)
  | deployFailed (names : List String)
  | rejectDestroy (ids : List Identifier)
  | flakyDestroy (ids : List Identifier)
  | failTag (fails : Bool)
  | failListing (fails : Bool)
  | unprocessableEmptyListing (refused : Bool)

def set (f : Faults) : Setting → Faults
  | .readyAfterPolls polls => { f with readyAfterPolls := polls }
  | .rateLimitAfterDestroys limit => { f with rateLimitAfterDestroys := limit }
  | .rejectCreate names => { f with rejectCreate := names }
  | .deployFailed names => { f with deployFailed := names }
  | .rejectDestroy ids => { f with rejectDestroy := ids }
  | .flakyDestroy ids => { f with flakyDestroy := ids }
  | .failTag fails => { f with failTag := fails }
  | .failListing fails => { f with failListing := fails }
  | .unprocessableEmptyListing refused => { f with unprocessableEmptyListing := refused }

def finalStatus (f : Faults) (name : String) : Status := .ready (name ∈ f.deployFailed)

end Faults

structure Journal where
  created : List (Kind × String)
  destroyed : List Identifier
  listings : Nat
  gets : Nat
  deriving DecidableEq

namespace Journal

def empty : Journal := ⟨[], [], 0, 0⟩

end Journal

/-- A provider that keeps an inventory. Objects may refer only to what is there, and what is
referred to cannot be destroyed. -/
structure Memory where
  inventory : Inventory
  faults : Faults
  /-- How often each progressing object has been looked at. -/
  polls : OrderedMap Identifier Nat
  destroyAttempts : Nat
  journal : Journal
  /-- How many identifiers have been given out. -/
  issued : Nat
  deriving DecidableEq

namespace Memory

def ofInventory (inventory : Inventory) (issued : Nat) : Memory :=
  ⟨inventory, .none, ∅, 0, .empty, issued⟩

/-- Deploys a progressing object if it has been looked at often enough. -/
def poll (m : Memory) (id : Identifier) : Memory :=
  match m.inventory.objects.get? id with
  | none => m
  | some r =>
    if r.status ≠ .progressing then m
    else
      let polls := (m.polls.get? id).getD 0 + 1
      if m.faults.readyAfterPolls ≤ polls then
        { m with
          inventory := m.inventory.put id (r.withStatus (m.faults.finalStatus r.name))
          polls := m.polls.erase id }
      else { m with polls := m.polls.insert id polls }

def get (m : Memory) (kind : Kind) (id : Identifier) : Except Refusal Resource × Memory :=
  let m := { m with journal := { m.journal with gets := m.journal.gets + 1 } }
  if m.inventory.kindOf? id ≠ some kind then (.error .notFound, m)
  else
    let m := m.poll id
    match m.inventory.objects.get? id with
    | none => (.error .notFound, m)
    | some r => (.ok r, m)

def list (m : Memory) (tag : Tag) : Except Refusal (List Listed) × Memory :=
  let m := { m with journal := { m.journal with listings := m.journal.listings + 1 } }
  let listed := (m.inventory.tagged tag).map fun (id, r) => ⟨id, r.kind.typeIdentifier⟩
  if m.faults.failListing then (.error (.transport "listing unavailable"), m)
  else if listed.isEmpty && m.faults.unprocessableEmptyListing then
    (.error (.unprocessable ("no objects tagged " ++ tag.text)), m)
  else (.ok listed, m)

def create (fresh : Nat → Identifier) (m : Memory) (r : Resource) :
    Except Refusal Identifier × Memory :=
  if r.name ∈ m.faults.rejectCreate then
    (.error (.rejected ("creation of " ++ r.name ++ " rejected")), m)
  else
    match m.inventory.checkReferences r with
    | .error refusal => (.error refusal, m)
    | .ok () =>
      let id := fresh (m.issued + 1)
      let status :=
        if m.faults.readyAfterPolls = 0 then m.faults.finalStatus r.name else .progressing
      (.ok id,
        { m with
          inventory := m.inventory.put id ((r.withIdentifier id).withStatus status)
          journal := { m.journal with created := m.journal.created ++ [(r.kind, r.name)] }
          issued := m.issued + 1 })

def destroy (m : Memory) (kind : Kind) (id : Identifier) : Except Refusal Unit × Memory :=
  let limited :=
    match m.faults.rateLimitAfterDestroys with
    | none => false
    | some limit => limit ≤ m.destroyAttempts
  if limited then (.error .rateLimited, m)
  else
    let m := { m with destroyAttempts := m.destroyAttempts + 1 }
    if m.inventory.kindOf? id ≠ some kind then (.error .notFound, m)
    else if id ∈ m.faults.rejectDestroy then
      (.error (.rejected (kind.name ++ " " ++ id.text ++ " is locked")), m)
    else if id ∈ m.faults.flakyDestroy then
      (.error (.transport "connection reset"),
        { m with faults :=
          { m.faults with flakyDestroy := m.faults.flakyDestroy.filter fun i => i ≠ id } })
    else
      match m.inventory.referrer? id with
      | some r =>
        (.error (.rejected
          (kind.name ++ " " ++ id.text ++ " still referenced by " ++ r.describe)), m)
      | none =>
        (.ok (),
          { m with
            inventory := m.inventory.remove id
            polls := m.polls.erase id
            journal := { m.journal with destroyed := m.journal.destroyed ++ [id] } })

def tag (m : Memory) (id : Identifier) (tag : Tag) : Except Refusal Unit × Memory :=
  if !m.inventory.objects.contains id then (.error .notFound, m)
  else if m.faults.failTag then (.error (.transport "tag service unavailable"), m)
  else (.ok (), { m with inventory := m.inventory.attach id tag })

/-- A provider that gives out `fresh 1`, `fresh 2`, and so on. -/
def provider (fresh : Nat → Identifier) : Provider Memory where
  answer
    | .get kind id, m => m.get kind id
    | .list tag, m => m.list tag
    | .create r, m => m.create fresh r
    | .destroy kind id, m => m.destroy kind id
    | .tag id tag, m => m.tag id tag

def addLoadBalancer (m : Memory) (lb : Identifier) : Memory :=
  { m with inventory :=
    { m.inventory with loadBalancers := m.inventory.loadBalancers.insert lb () } }

/-- Puts an object in place without any checks. -/
def insert (fresh : Nat → Identifier) (m : Memory) (r : Resource) (tags : List Tag) :
    Identifier × Memory :=
  let (id, issued) :=
    match r.identifier with
    | some id => (id, m.issued)
    | none => (fresh (m.issued + 1), m.issued + 1)
  let inventory := tags.foldl (fun v tag => v.attach id tag) m.inventory
  (id, { m with inventory := inventory.put id (r.withIdentifier id), issued })

def configure (m : Memory) (settings : List Faults.Setting) : Memory :=
  { m with faults := settings.foldl Faults.set m.faults }

def setStatus (m : Memory) (id : Identifier) (status : Status) : Memory :=
  { m with inventory :=
    { m.inventory with objects := m.inventory.objects.modify id (Resource.withStatus status) } }

def objectsOf (m : Memory) (kind : Kind) : List Resource :=
  m.inventory.objects.values.filter fun r => r.kind = kind

end Memory

end BalancerSync
