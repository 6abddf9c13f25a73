import BalancerSync.Proofs.Rounds

namespace BalancerSync.Rendezvous

variable {κ β : Type}

/-- A round from its beginning on. -/
structure Round (κ β : Type) where
  leader : Nat
  /-- The parties when the round began, each with the arrival that filled its slot. -/
  slots : List (κ × Option Nat)
  /-- How many arrivals there had been when the round began. -/
  begun : Nat
  /-- Nothing as long as the round is being led. -/
  outcome : Option (Outcome β)

namespace Round

def members (r : Round κ β) : List Nat := r.slots.filterMap (·.2)

def isOver (r : Round κ β) : Bool := r.outcome.isSome

def conclude (r : Round κ β) (outcome : Outcome β) : Round κ β := { r with outcome := some outcome }

end Round

def concludeLatest (outcome : Outcome β) : List (Round κ β) → List (Round κ β)
  | [] => []
  | r :: rounds => r.conclude outcome :: rounds

variable [DecidableEq κ]

def enroll (m : Rendezvous κ β) (key : κ) (canceled : Bool) : Rendezvous κ β :=
  setSlot { m with arrivals := m.arrivals ++ [⟨key, canceled, .waiting .open true⟩] } key (some m.next)

def refuse (m : Rendezvous κ β) (key : κ) (canceled : Bool) (denial : Denial) : Rendezvous κ β :=
  { m with arrivals := m.arrivals ++ [⟨key, canceled, .ended (.error denial)⟩] }

omit [DecidableEq κ] in
def claim (m : Rendezvous κ β) (a : Nat) (round : List Nat) : Rendezvous κ β :=
  setStage { m with slots := m.slots.map fun s => (s.1, none), leading := true } a (.leading round)

def attempt? (m : Rendezvous κ β) : Move κ β → Option (Nat × Rendezvous κ β)
  | .arrive key canceled => if m.slot? key = some none then some (m.next, m.enroll key canceled) else none
  | .step a =>
    match m.arrivals[a]? with
    | some ⟨_, false, .waiting .open true⟩ => some (a, m)
    | _ => none
  | _ => none

/-- The round that begins in a move. It is over at once if its leader has been canceled. -/
def begins? (m : Rendezvous κ β) (move : Move κ β) : Option (Round κ β) :=
  match m.attempt? move with
  | none => none
  | some (a, m) => m.complete?.map fun _ =>
    ⟨a, m.slots, m.next, if m.isCanceled a then some (.error .canceled) else none⟩

def leads (m : Rendezvous κ β) (a : Nat) : Bool :=
  match m.stage? a with
  | some (.leading _) => true
  | _ => false

/-- What becomes in a move of the round that is being led: the value of its work, or nothing if its
leader has been canceled or is given up. -/
def verdict? (m : Rendezvous κ β) : Move κ β → Option (Outcome β)
  | .step a => if m.leads a && m.isCanceled a then some (.error .canceled) else none
  | .finish a value =>
    if m.leads a then some (if m.isCanceled a then .error .canceled else .ok value) else none
  | .drop a => if m.leads a then some (.error .canceled) else none
  | _ => none

def note (m : Rendezvous κ β) (move : Move κ β) (rounds : List (Round κ β)) : List (Round κ β) :=
  (m.begins? move).toList ++
    match m.verdict? move with
    | some outcome => concludeLatest outcome rounds
    | none => rounds

/-- The rounds of a history, after those that have been before it. The latest comes first. -/
def record (m : Rendezvous κ β) (rounds : List (Round κ β)) : List (Move κ β) → List (Round κ β)
  | [] => rounds
  | move :: moves => record (m.move move) (m.note move rounds) moves

/-- All rounds of a history, the latest first. -/
def chronicle (moves : List (Move κ β)) : List (Round κ β) := record .empty [] moves

theorem play_append (m : Rendezvous κ β) (moves moves' : List (Move κ β)) :
    m.play (moves ++ moves') = (m.play moves).play moves' := List.foldl_append

theorem play_concat (m : Rendezvous κ β) (moves : List (Move κ β)) (move : Move κ β) :
    m.play (moves ++ [move]) = (m.play moves).move move := play_append ..

theorem record_concat (m : Rendezvous κ β) (rounds : List (Round κ β)) (moves : List (Move κ β))
    (move : Move κ β) :
    record m rounds (moves ++ [move]) = (m.play moves).note move (record m rounds moves) := by
  induction moves generalizing m rounds with
  | nil => rfl
  | cons first moves ih => exact ih ..

theorem chronicle_concat (moves : List (Move κ β)) (move : Move κ β) :
    chronicle (moves ++ [move]) =
      (play .empty moves : Rendezvous κ β).note move (chronicle moves) := record_concat ..

/-- What can happen to a meeting and its rounds at once, if nobody leaves who must not. -/
inductive Change (leaving : κ → Prop) :
    List (Round κ β) → Rendezvous κ β → List (Round κ β) → Rendezvous κ β → Prop
  | register {rounds : List (Round κ β)} {m : Rendezvous κ β} {k : κ}
      (hk : m.isRegistered k = false) :
      Change leaving rounds m rounds { m with slots := m.slots ++ [(k, none)] }
  | leave {rounds : List (Round κ β)} {m : Rendezvous κ β} {k : κ} (hl : leaving k)
      (hk : m.isRegistered k = true) : Change leaving rounds m rounds (m.leave k).2
  | refuse {rounds : List (Round κ β)} {m : Rendezvous κ β} {k : κ} {c : Bool} {denial : Denial}
      (hd : denial ≠ .canceled) : Change leaving rounds m rounds (m.refuse k c denial)
  | enroll {rounds : List (Round κ β)} {m : Rendezvous κ β} {k : κ} {c : Bool}
      (hk : m.slot? k = some none) : Change leaving rounds m rounds (m.enroll k c)
  | claim {rounds : List (Round κ β)} {m : Rendezvous κ β} {a : Nat} {k : κ} {c : Bool}
      {round : List Nat} (ha : m.arrivals[a]? = some ⟨k, c, .waiting .open true⟩)
      (hround : m.complete? = some round) :
      Change leaving rounds m (⟨a, m.slots, m.next, none⟩ :: rounds) (m.claim a round)
  | start {rounds : List (Round κ β)} {m : Rendezvous κ β} {led : List Nat} :
      Change leaving rounds m rounds { m with led }
  | conclude {rounds : List (Round κ β)} {m : Rendezvous κ β} {a : Nat} {round : List Nat}
      {stage : Stage β} {outcome : Outcome β} (ha : m.stage? a = some (.leading round))
      (hs : stage = .waiting .open true ∨ stage = .dropped) :
      Change leaving rounds m (concludeLatest outcome rounds) ((m.setStage a stage).release round outcome)
  | take {rounds : List (Round κ β)} {m : Rendezvous κ β} {a : Nat} {k : κ} {c w : Bool}
      {outcome : Outcome β} (ha : m.arrivals[a]? = some ⟨k, c, .waiting (.holds outcome) w⟩) :
      Change leaving rounds m rounds (m.setStage a (.ended outcome))
  | lose {rounds : List (Round κ β)} {m : Rendezvous κ β} {a : Nat} {k : κ} {c w : Bool}
      (ha : m.arrivals[a]? = some ⟨k, c, .waiting .closed w⟩) :
      Change leaving rounds m rounds (m.setStage a (.ended (.error .canceled)))
  | giveUp {rounds : List (Round κ β)} {m : Rendezvous κ β} {a : Nat} {k : κ} {w : Bool}
      (ha : m.arrivals[a]? = some ⟨k, true, .waiting .open w⟩) :
      Change leaving rounds m rounds ((m.setStage a (.ended (.error .canceled))).withdraw k)
  | rest {rounds : List (Round κ β)} {m : Rendezvous κ β} {a : Nat} {k : κ} {w : Bool}
      (ha : m.arrivals[a]? = some ⟨k, false, .waiting .open w⟩)
      (hw : w = true → m.complete? = none) :
      Change leaving rounds m rounds (m.setStage a (.waiting .open false))
  | cancel {rounds : List (Round κ β)} {m : Rendezvous κ β} {a : Nat} :
      Change leaving rounds m rounds (m.cancel a)
  | abandon {rounds : List (Round κ β)} {m : Rendezvous κ β} {a : Nat} {k : κ} {c w : Bool}
      {mailbox : Mailbox β} (ha : m.arrivals[a]? = some ⟨k, c, .waiting mailbox w⟩) :
      Change leaving rounds m rounds (m.setStage a .dropped)

inductive Changes (leaving : κ → Prop) :
    List (Round κ β) → Rendezvous κ β → List (Round κ β) → Rendezvous κ β → Prop
  | refl (rounds : List (Round κ β)) (m : Rendezvous κ β) : Changes leaving rounds m rounds m
  | tail {rounds rounds' rounds'' : List (Round κ β)} {m m' m'' : Rendezvous κ β}
      (h : Changes leaving rounds m rounds' m') (h' : Change leaving rounds' m' rounds'' m'') :
      Changes leaving rounds m rounds'' m''

end BalancerSync.Rendezvous
