import BalancerSync.Engine.Reconciliation
import BalancerSync.Proofs.World

namespace BalancerSync

variable {fresh : Nat → Identifier} {α : Type}

namespace Schedule

/-- What may happen while a task runs. -/
inductive Occurrence
  | move (m : Move)
  /-- The provider misbehaves differently from now on. -/
  | set (setting : Faults.Setting)

/-- The misbehaviour stays within what is permitted. -/
def Occurrence.Permitted (permits : Faults.Setting → Prop) : Occurrence → Prop
  | move _ => True
  | set setting => permits setting

def occur (fresh : Nat → Identifier) (s : Schedule Memory α) : Occurrence → Schedule Memory α
  | .move m => s.move (Memory.provider fresh) m
  | .set setting => { s with provider := s.provider.configure [setting] }

def pass (fresh : Nat → Identifier) (s : Schedule Memory α) (os : List Occurrence) :
    Schedule Memory α :=
  os.foldl (occur fresh) s

end Schedule

open Schedule Reconciliation

/-- Reconciliations of some layouts that fetch their own snapshots lead from one memory to another,
with permitted misbehaviour. -/
inductive Succession (fresh : Nat → Identifier) (layouts : Layout → Prop)
    (permits : Faults.Setting → Prop) (m : Memory) : Memory → Prop
  | refl : Succession fresh layouts permits m m
  | set {m' : Memory} (h : Succession fresh layouts permits m m') {setting : Faults.Setting}
      (hp : permits setting) : Succession fresh layouts permits m (m'.configure [setting])
  | run {l : Layout} {s : Schedule Memory Unit} {before after : Option Snapshot}
      {os : List Occurrence} {out : Except Failure Unit}
      (h : Succession fresh layouts permits m s.provider) (hl : layouts l)
      (hs : s.Starts (direct l).reconcile before) (hos : ∀ o ∈ os, o.Permitted permits)
      (hout : (s.pass fresh os).Ends out after) :
      Succession fresh layouts permits m (s.pass fresh os).provider

namespace World

def configure (w : World) (settings : List Faults.Setting) : World :=
  { w with memory := w.memory.configure settings }

variable {e : Environment World} {I : World → Prop} {post : Except Failure α → World → Prop}
  {s : Schedule Memory α} {permits : Faults.Setting → Prop} {w : World}

/-- The environment covers misbehaviour as well, and what holds goes on to hold. Nothing that may
happen before a request makes a difference for what is asked for in the end. -/
structure Withstands (permits : Faults.Setting → Prop) (e : Environment World) (I : World → Prop)
    (post : Except Failure α → World → Prop) : Prop where
  set : ∀ w setting, permits setting → I w →
    e.rely w (w.configure [setting]) ∧ I (w.configure [setting])
  trans : ∀ w w' w'', e.rely w w' → e.rely w' w'' → e.rely w w''
  post : ∀ out w w', post out w → e.rely w w' → post out w'

theorem Follows.set (hW : Withstands permits e I post) (h : Follows e I post s)
    {setting : Faults.Setting} (hp : permits setting) :
    Follows e I post { s with provider := s.provider.configure [setting] } := by
  obtain ⟨t, w, hs, ⟨hm, hl⟩, hI, hmeets⟩ := h
  obtain ⟨hrely, hI'⟩ := hW.set w setting hp hI
  exact ⟨t, w.configure [setting], hs, ⟨by rw [← hm]; rfl, hl⟩, hI',
    hmeets.stable hrely hW.trans hW.post⟩

theorem Follows.pass (hI : Sustained fresh e I) (hW : Withstands permits e I post)
    (h : Follows e I post s) (os : List Occurrence) (hos : ∀ o ∈ os, o.Permitted permits) :
    Follows e I post (s.pass fresh os) := by
  induction os generalizing s with
  | nil => exact h
  | cons o os ih =>
    refine ih ?_ fun o ho => hos o (List.mem_cons_of_mem _ ho)
    have ho := hos o List.mem_cons_self
    cases o with
    | move m => exact h.move hI m
    | set setting => exact h.set hW ho

end World

end BalancerSync
