import BalancerSync.Proofs.Fleet
import BalancerSync.Run.Together

namespace BalancerSync

open Program World Rendezvous

variable {fresh : Nat → Identifier} {f : Fleet} {before rounds i : Nat} {lb : Identifier}
  {w w' : World} {phase : Phase Shared} {p : Program Unit}

abbrev Fleet.calm (f : Fleet) (fresh : Nat → Identifier) (before : Nat) (lb : Identifier) :
    Environment World := World.calm fresh (f.layout lb) false (before + 7)

def World.Finished (out : Except Failure Unit) (w : World) : Prop := out = .ok () ∧ w.left = true

theorem World.calm_rely_refl (w : World) : (f.calm fresh before lb).rely w w := .inl rfl

theorem World.calm_rely_trans {w'' : World} (h : (f.calm fresh before lb).rely w w')
    (h' : (f.calm fresh before lb).rely w' w'') : (f.calm fresh before lb).rely w w'' := by
  rcases h with rfl | ⟨-, h⟩
  · exact h'
  rcases h' with rfl | ⟨-, h'⟩
  · exact .inr ⟨rfl, h⟩
  refine .inr ⟨rfl, ?_⟩
  rcases h with ⟨hl, hs⟩ | ⟨hl, hlead, hb⟩
  · rcases h' with ⟨-, hs'⟩ | ⟨hl', -⟩
    · exact .inl ⟨hl, hs'.trans hs⟩
    · cases ((congrArg Stance.left hs).trans hl).symm.trans hl'
  · rcases h' with ⟨hl', -⟩ | ⟨-, -, hb'⟩
    · cases ((congrArg Stance.left hb.stance).trans hl).symm.trans hl'
    · exact .inr ⟨hl, hlead, hb.trans hb'⟩

theorem World.rely_stance (h : (f.calm fresh before lb).rely w w') : w'.toStance = w.toStance := by
  rcases h with rfl | ⟨-, ⟨-, hs⟩ | ⟨-, -, hb⟩⟩
  · rfl
  · exact hs
  · exact hb.stance

/-- Nothing that the others do makes a difference. -/
theorem World.meets_of_rely (h : p.Meets (f.calm fresh before lb) Finished w)
    (hr : (f.calm fresh before lb).rely w w') : p.Meets (f.calm fresh before lb) Finished w' := by
  refine h.stable hr (fun _ _ _ => calm_rely_trans) ?_
  rintro out w₁ w₂ ⟨hout, hl⟩ hr
  exact ⟨hout, (congrArg Stance.left (rely_stance hr)).trans hl⟩

/-- How the program of a load balancer stands in the world, in view of its place in the meeting. -/
inductive Standing (fresh : Nat → Identifier) (f : Fleet) (before rounds : Nat) (lb : Identifier)
    (w : World) : Phase Shared → Program Unit → Prop
  | away {p : Program Unit} (h : p.Meets (f.calm fresh before lb) Finished w) :
      Standing fresh f before rounds lb w .away p
  | waiting {a : Nat} {woken : Bool} {next : Turn → Program Unit}
      (h : (ask (.arrive lb) next).Meets (f.calm fresh before lb) Finished w) :
      Standing fresh f before rounds lb w (.waiting a woken) (ask (.arrive lb) next)
  /-- Since the round began, objects of the load balancer have at most been looked at. -/
  | called {a : Nat} {next : Turn → Program Unit} {w₀ : World}
      (h : (ask (.arrive lb) next).Meets (f.calm fresh before lb) Finished w₀)
      (hstance : w.toStance = w₀.toStance) (hmatured : w₀.memory.Matured (f.layout lb) w.memory)
      (hlistings : w₀.memory.journal.listings = before + rounds) :
      Standing fresh f before rounds lb w (.called a) (ask (.arrive lb) next)
  | holding {a : Nat} {outcome : Outcome Shared} {next : Turn → Program Unit}
      (h : (next (.ended outcome)).Meets (f.calm fresh before lb) Finished w) :
      Standing fresh f before rounds lb w (.holding a outcome) (ask (.arrive lb) next)
  | leading {a : Nat} {p : Program Unit} (h : p.Meets (f.calm fresh before lb) Finished w) :
      Standing fresh f before rounds lb w (.leading a) p
  | gone {p : Program Unit} (h : p.Meets (f.calm fresh before lb) Finished w)
      (hserves : (f.layout lb).Serves w.inventory) : Standing fresh f before rounds lb w .gone p

/-- Whether the program of a load balancer at a place is known as it is, and as of now. -/
def Rendezvous.Phase.IsPlain : Phase Shared → Prop
  | .away | .leading _ | .gone => True
  | .waiting _ _ | .called _ | .holding _ _ => False

namespace Standing

theorem meets (h : Standing fresh f before rounds lb w phase p) (hphase : phase.IsPlain) :
    p.Meets (f.calm fresh before lb) Finished w := by
  cases h with
  | away h => exact h
  | waiting h => exact hphase.elim
  | called h hstance hmatured hlistings => exact hphase.elim
  | holding h => exact hphase.elim
  | leading h => exact h
  | gone h hserves => exact h

theorem of_meets {p' : Program Unit} (h : Standing fresh f before rounds lb w phase p)
    (hphase : phase.IsPlain) (hm : w'.memory = w.memory)
    (h' : p'.Meets (f.calm fresh before lb) Finished w') :
    Standing fresh f before rounds lb w' phase p' := by
  cases h with
  | away h => exact .away h'
  | waiting h => exact hphase.elim
  | called h hstance hmatured hlistings => exact hphase.elim
  | holding h => exact hphase.elim
  | leading h => exact .leading h'
  | gone h hserves =>
    refine .gone h' ?_
    rw [World.inventory, hm]
    exact hserves

/-- Others have done something that is none of the load balancer's business. -/
theorem beside (h : Standing fresh f before rounds lb w phase p)
    (hb : Beside fresh (f.layout lb) w w') (hleft : w.left = !phase.isHere)
    (hlead : ∀ a, phase ≠ .leading a) (hnot : w.leading = none) :
    Standing fresh f before rounds lb w' phase p := by
  have hrely (hh : phase.isHere = true) : (f.calm fresh before lb).rely w w' := by
    rw [hh] at hleft
    exact .inr ⟨rfl, .inr ⟨hleft, hnot, hb⟩⟩
  cases h with
  | away h => exact .away (meets_of_rely h (hrely rfl))
  | waiting h => exact .waiting (meets_of_rely h (hrely rfl))
  | called h hstance hmatured hlistings =>
    exact .called h (hb.stance.trans hstance) (hmatured.trans hb.awaited.toMatured) hlistings
  | holding h => exact .holding (meets_of_rely h (hrely rfl))
  | leading h => exact absurd rfl (hlead _)
  | gone h hserves =>
    exact .gone (meets_of_rely h (.inr ⟨rfl, .inl ⟨hleft, hb.stance⟩⟩)) (hserves.of_owns hb.owns)

end Standing

/-- What serves a service is ready, and does not change when it is looked at. -/
theorem Layout.Serves.polled {l : Layout} {m m' : Memory} (h : l.Serves m.inventory)
    (hp : Memory.Polled l.service.tag m m') : l.Serves m'.inventory := by
  obtain ⟨identifier, hperm⟩ := id h
  refine ⟨identifier, ?_⟩
  rw [hp.share_eq fun id r hr => by simp [h.status_eq hr]]
  exact hperm

namespace Standing

theorem polled (h : Standing fresh f before rounds lb w phase p)
    (hp : World.Polled f.service.tag w w') (hs : Sound fresh (f.layout lb) w)
    (hphase : (∃ a, phase = .called a) ∨ phase = .gone) (hleft : w.left = !phase.isHere) :
    Standing fresh f before rounds lb w' phase p := by
  have hstance : w'.toStance = w.toStance := by rw [hp.1]
  rcases hphase with ⟨a, rfl⟩ | rfl
  · cases h with
    | called h hstance' hmatured hlistings =>
      exact .called h (hstance.trans hstance')
        (hmatured.trans (Memory.Polled.matured (l := f.layout lb) hp.2 hs.tidy.harmless)) hlistings
  · cases h with
    | gone h hserves =>
      exact .gone (meets_of_rely h (.inr ⟨rfl, .inl ⟨hleft, hstance⟩⟩)) (hserves.polled hp.2)

theorem call {rounds : Nat} (h : Standing fresh f before rounds lb w phase p)
    (hphase : phase = .gone ∨ ∃ a woken, phase = .waiting a woken)
    (hl : w.memory.journal.listings = before + rounds) :
    Standing fresh f before rounds lb w phase.call p := by
  rcases hphase with rfl | ⟨a, woken, rfl⟩
  · cases h with
    | gone h hserves => exact .gone h hserves
  · cases h with
    | waiting h => exact .called h rfl (.refl _) hl

theorem hold {snapshot : Snapshot} (h : Standing fresh f before rounds lb w phase p)
    (hphase : phase = .gone ∨ ∃ a, phase = .called a) (hs : Sound fresh (f.layout lb) w)
    (hl : w.memory.journal.listings = before + (rounds + 1))
    (hsnapshot : snapshot = w.inventory.snapshot f.service.tag) :
    Standing fresh f before (rounds + 1) lb w (phase.hold (.ok (.ok snapshot))) p := by
  rcases hphase with rfl | ⟨a, rfl⟩
  · cases h with
    | gone h hserves => exact .gone h hserves
  · cases h with
    | called h hstance hmatured hlistings =>
      refine .holding ((h _ (calm_rely_refl _)).2 _ w ⟨⟨hstance, hs, hmatured, ?_⟩, _, rfl, ?_⟩)
      · omega
      · rw [hsnapshot]
        exact hs.narrowTo_snapshot

theorem wake (h : Standing fresh f before rounds lb w phase p) :
    Standing fresh f before rounds lb w phase.wake p := by
  cases h with
  | away h => exact .away h
  | waiting h => exact .waiting h
  | called h hstance hmatured hlistings => exact .called h hstance hmatured hlistings
  | holding h => exact .holding h
  | leading h => exact .leading h
  | gone h hserves => exact .gone h hserves

end Standing

end BalancerSync
