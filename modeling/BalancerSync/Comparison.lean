import BalancerSync.Failure

namespace BalancerSync

/-- Resources of one kind. -/
class Comparable (α : Type) where
  decidableEq : DecidableEq α
  kind : Kind
  toResource : α → Resource
  /-- The resource without an identifier, and progressing. -/
  bare : α → α

namespace Comparable

variable {α : Type} [Comparable α]

instance (priority := low) : DecidableEq α := decidableEq

def name (a : α) : String := (toResource a).name

def identifier (a : α) : Option Identifier := (toResource a).identifier

def alike (a b : α) : Bool := bare a = bare b

instance : Comparable Backend where
  decidableEq := inferInstance
  kind := .backend
  toResource := .backend
  bare b := { b with identifier := none, status := .progressing }

instance : Comparable Frontend where
  decidableEq := inferInstance
  kind := .frontend
  toResource := .frontend
  bare f := { f with identifier := none, status := .progressing }

instance : Comparable Bind where
  decidableEq := inferInstance
  kind := .bind
  toResource := .bind
  bare b := { b with identifier := none, status := .progressing }

instance : Comparable Server where
  decidableEq := inferInstance
  kind := .server
  toResource := .server
  bare s := { s with identifier := none, status := .progressing }

end Comparable

open Comparable

/-- The difference between what is wanted and what is there. -/
structure Difference (α : Type) where
  /-- What is wanted and not there. -/
  create : List α
  /-- What is there and not wanted. -/
  destroy : List α
  deriving DecidableEq

namespace Difference

variable {α : Type} [Comparable α]

def isEmpty (d : Difference α) : Bool := d.create.isEmpty && d.destroy.isEmpty

/-- The first target that is like one before it. -/
def repeated? : List α → List α → Option α
  | _, [] => none
  | before, a :: rest => if before.any (alike a) then some a else repeated? (a :: before) rest

/-- The first object that is like a target. -/
def findMatch? (target : α) (present : List α) : Option α := present.find? (alike target)

def missing (targets present : List α) : List α :=
  targets.filter fun a => (findMatch? a present).isNone

/-- The objects that are left when every target has taken the first one that is like it. -/
def leftOver : List α → List α → List α
  | _, [] => []
  | targets, a :: rest =>
    if targets.any (alike a) then leftOver (targets.eraseP (alike a)) rest
    else a :: leftOver targets rest

/-- Fails if two targets are alike. -/
def between (targets present : List α) : Except Failure (Difference α) :=
  match repeated? [] targets with
  | some a => .error (.duplicateResource (kind α) (name a))
  | none => .ok ⟨missing targets present, leftOver targets present⟩

end Difference

end BalancerSync
