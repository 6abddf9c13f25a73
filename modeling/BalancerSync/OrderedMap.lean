namespace BalancerSync

class LinearKey (κ : Type) extends LT κ where
  decidableEq : DecidableEq κ
  decidableLT : ∀ a b : κ, Decidable (a < b)
  irrefl : ∀ a : κ, ¬ a < a
  trans : ∀ {a b c : κ}, a < b → b < c → a < c
  trichotomous : ∀ {a b : κ}, ¬ a < b → ¬ b < a → a = b

namespace LinearKey

instance (priority := low) {κ : Type} [LinearKey κ] : DecidableEq κ := decidableEq

instance (priority := low) {κ : Type} [LinearKey κ] (a b : κ) : Decidable (a < b) :=
  decidableLT a b

instance : LinearKey String where
  decidableEq := inferInstance
  decidableLT := inferInstance
  irrefl := String.lt_irrefl
  trans := String.lt_trans
  trichotomous h k := Std.Trichotomous.trichotomous _ _ h k

instance : LinearKey Nat where
  decidableEq := inferInstance
  decidableLT := inferInstance
  irrefl := Nat.lt_irrefl
  trans := Nat.lt_trans
  trichotomous h k := Nat.le_antisymm (Nat.le_of_not_lt k) (Nat.le_of_not_lt h)

/-- Lists are ordered by their first difference, and a list comes before its continuations. -/
instance : LinearKey (List Nat) where
  decidableEq := inferInstance
  decidableLT := inferInstance
  irrefl := Std.Irrefl.irrefl
  trans h k := List.lt_trans h k
  trichotomous h k := Std.Trichotomous.trichotomous _ _ h k

/-- Keys that are told apart by a label are ordered by that label. -/
abbrev ofLabel {κ μ : Type} [LinearKey μ] (label : κ → μ)
    (inj : ∀ {a b}, label a = label b → a = b) : LinearKey κ where
  lt a b := label a < label b
  decidableEq a b := decidable_of_iff (label a = label b) ⟨inj, fun h => h ▸ rfl⟩
  decidableLT a b := decidableLT (label a) (label b)
  irrefl a := irrefl (label a)
  trans h k := trans h k
  trichotomous h k := inj (trichotomous h k)

instance : LinearKey UInt16 := ofLabel UInt16.toNat UInt16.toNat_inj.1

end LinearKey

abbrev Increasing {κ α : Type} [LinearKey κ] (entries : List (κ × α)) : Prop :=
  entries.Pairwise fun a b => a.1 < b.1

/-- The list of the entries in increasing order of their keys, so that two maps with the same
entries are equal. -/
@[ext] structure OrderedMap (κ α : Type) [LinearKey κ] where
  entries : List (κ × α)
  increasing : Increasing entries

namespace OrderedMap

variable {κ α : Type} [LinearKey κ]

deriving instance DecidableEq for OrderedMap

def empty : OrderedMap κ α := ⟨[], .nil⟩

instance : Inhabited (OrderedMap κ α) := ⟨empty⟩

instance : EmptyCollection (OrderedMap κ α) := ⟨empty⟩

def isEmpty (m : OrderedMap κ α) : Bool := m.entries.isEmpty

def size (m : OrderedMap κ α) : Nat := m.entries.length

def keys (m : OrderedMap κ α) : List κ := m.entries.map (·.1)

def values (m : OrderedMap κ α) : List α := m.entries.map (·.2)

def find (k : κ) : List (κ × α) → Option α
  | [] => none
  | (j, a) :: rest => if j = k then some a else find k rest

def get? (m : OrderedMap κ α) (k : κ) : Option α := find k m.entries

def contains (m : OrderedMap κ α) (k : κ) : Bool := (m.get? k).isSome

/-- Puts an entry in its place, over an entry with the same key. -/
def place (k : κ) (a : α) : List (κ × α) → List (κ × α)
  | [] => [(k, a)]
  | (j, b) :: rest =>
    if k < j then (k, a) :: (j, b) :: rest
    else if j < k then (j, b) :: place k a rest
    else (k, a) :: rest

theorem mem_place {k : κ} {a : α} {l : List (κ × α)} {e : κ × α} (h : e ∈ place k a l) :
    e = (k, a) ∨ e ∈ l := by
  induction l with
  | nil => simpa [place] using h
  | cons b rest ih =>
    obtain ⟨j, b⟩ := b
    simp only [place] at h
    split at h
    · simpa using h
    · split at h <;> simp only [List.mem_cons] at h ⊢ <;> grind

theorem place_increasing {k : κ} {a : α} {l : List (κ × α)} (h : Increasing l) :
    Increasing (place k a l) := by
  induction l with
  | nil => exact .cons (fun _ h => by simp at h) .nil
  | cons b rest ih =>
    obtain ⟨j, b⟩ := b
    have hj := List.pairwise_cons.1 h
    simp only [place]
    split
    next hk =>
      refine List.pairwise_cons.2 ⟨fun e he => ?_, h⟩
      rcases List.mem_cons.1 he with rfl | he
      · exact hk
      · exact LinearKey.trans hk (hj.1 e he)
    next hk =>
      split
      next hl =>
        refine List.pairwise_cons.2 ⟨fun e he => ?_, ih hj.2⟩
        rcases mem_place he with rfl | he
        · exact hl
        · exact hj.1 e he
      next hl =>
        cases LinearKey.trichotomous hk hl
        exact List.pairwise_cons.2 ⟨hj.1, hj.2⟩

def insert (m : OrderedMap κ α) (k : κ) (a : α) : OrderedMap κ α :=
  ⟨place k a m.entries, place_increasing m.increasing⟩

def erase (m : OrderedMap κ α) (k : κ) : OrderedMap κ α :=
  ⟨m.entries.filter fun e => e.1 ≠ k, m.increasing.filter _⟩

def filter (m : OrderedMap κ α) (p : κ → α → Bool) : OrderedMap κ α :=
  ⟨m.entries.filter fun e => p e.1 e.2, m.increasing.filter _⟩

def mapValues {β : Type} (m : OrderedMap κ α) (f : κ → α → β) : OrderedMap κ β :=
  ⟨m.entries.map fun e => (e.1, f e.1 e.2), List.pairwise_map.2 m.increasing⟩

def modify (m : OrderedMap κ α) (k : κ) (f : α → α) : OrderedMap κ α :=
  m.mapValues fun j a => if j = k then f a else a

/-- The map of a list of entries. A later entry replaces an earlier one with the same key. -/
def ofList (l : List (κ × α)) : OrderedMap κ α :=
  l.foldl (fun m e => m.insert e.1 e.2) empty

end OrderedMap

abbrev OrderedSet (κ : Type) [LinearKey κ] := OrderedMap κ Unit

namespace OrderedSet

variable {κ : Type} [LinearKey κ]

def toList (s : OrderedSet κ) : List κ := s.keys

def add (s : OrderedSet κ) (k : κ) : OrderedSet κ := s.insert k ()

def ofList (l : List κ) : OrderedSet κ := OrderedMap.ofList (l.map fun k => (k, ()))

end OrderedSet

end BalancerSync
